import ChatNow.Common.ReliabilityState
import ChatNow.Pipeline.Signature

/-!
# onDBMessage

`MessageServiceImpl::onDBMessage` of `message/source/message_server.h`, the consumer that stores a
message: content extraction, the transaction over the message table and the user timeline, the
persisted mark in Redis, and the hand-over to the push and index exchanges. `consume` is the broker
client's wrapper, which turns the returned action into an ack or a reject.

The transaction is one operation. It is refused by a unique index
(`odb::object_already_persistent`), fails otherwise, or commits; in the refused case the handler
looks its own id up to tell a redelivery from a collision with another message.

The confirm callback of the push publish is no part of the handler: it runs on the event loop when
the broker answers, possibly long after the delivery was acked. It belongs to the machine of
`Pipeline/Machine.lean`.
-/

namespace ChatNow

open Prog PipeOp MessageType

/-- Which optional collaborators the message service was built with. -/
structure MessageConfig where
  /-- `_redis` is set. -/
  redis : Bool := true
  /-- `_push_publisher` is set. -/
  push_publisher : Bool := true
  /-- `_push_outbox` is set. -/
  push_outbox : Bool := true
  /-- `_es_publisher` is set. -/
  es_publisher : Bool := true
  /-- `_es_outbox` is set. -/
  es_outbox : Bool := true

namespace OnDBMessage

/-- What the consumer keeps of a content. -/
structure Extracted where
  content_text : String := ""
  file_id : String := ""
  file_name : String := ""
  file_size : Int64 := 0
  deriving DecidableEq

/-- The content switch; `none` for a type it does not know. -/
def extract_content (ct : MessageContent) : Option Extracted :=
  if ct.type = TEXT then some { content_text := ct.text.text }
  else if ct.type = IMAGE then some { file_id := ct.image.file_id }
  else if ct.type = FILE then
    some { file_id := ct.file.file_id, file_name := ct.file.file_name,
           file_size := ct.file.file_size }
  else if ct.type = AUDIO then some { file_id := ct.audio.file_id }
  else none

/-- The content switch and the check that follows it; `none` is a `NackDiscard`. -/
def accepted_content (ct : MessageContent) : Option Extracted :=
  match extract_content ct with
  | none => none
  | some e => if ct.type ≠ TEXT ∧ e.file_id = "" then none else some e

/-- The row of a message. -/
def row_of (msg : Message) (e : Extracted) : MessageRow :=
  { message_id := msg.message_id.toUInt64
    seq_id := msg.seq_id
    session_id := msg.conversation_id
    user_id := msg.sender_id
    message_type := msg.content.type.num
    create_time := msg.created_at_ms
    content := e.content_text
    client_msg_id := if msg.client_msg_id = "" then none else some msg.client_msg_id
    file_id := e.file_id
    file_name := e.file_name
    file_size := e.file_size.toUInt64
    status := .NORMAL }

/-- The user sequence of a member; a later pair overwrites an earlier one, a member without a pair
has the column's default. -/
def user_seq_of (pairs : List UserSeqPair) (member : String) : UInt64 :=
  ((pairs.reverse.find? fun p ↦ p.user_id = member).map (·.user_seq)).getD 0

/-- The timeline rows of a write-diffused message; a large group has none. -/
def timeline_of (internal_msg : InternalMessage) : List UserTimeline :=
  let msg := internal_msg.message
  if internal_msg.is_large_group then []
  else internal_msg.member_id_list.map fun member ↦
    { user_id := member
      session_id := msg.conversation_id
      message_id := msg.message_id.toUInt64
      message_time := msg.created_at_ms
      session_seq := msg.seq_id
      user_seq := user_seq_of internal_msg.user_seqs member }

/-- `mark_idempotency_persisted_`; an exception is logged and dropped. -/
def mark_idempotency_persisted_ (cfg : MessageConfig) (sender_id client_msg_id : String)
    (message_id : UInt64) : PipeM Unit := do
  if !cfg.redis || client_msg_id = "" || sender_id = "" || message_id = 0 then return
  let _ ← op (redisSet (idempotency_key_for sender_id client_msg_id)
    (serialize_idempotency_state ⟨.Persisted, message_id.toNat⟩))

/-- The hand-over to the push exchange, with the outbox behind it. -/
def publish_push (cfg : MessageConfig) (internal_msg : InternalMessage) : PipeM Unit := do
  if cfg.push_publisher then
    match ← op (pushPublish internal_msg) with
    | .ok () => return
    | .thrown => if cfg.push_outbox then op (pushEnqueue internal_msg)
  else if cfg.push_outbox then op (pushEnqueue internal_msg)

/-- The index event of a text message. -/
def es_event (msg : Message) (content_text : String) : ESIndexEvent :=
  { message_id := msg.message_id
    conversation_id := msg.conversation_id
    sender_id := msg.sender_id
    content_text := content_text
    created_at_ms := msg.created_at_ms
    seq_id := msg.seq_id
    message_type := msg.content.type }

/-- The hand-over to the index exchange, for a non-empty text only. -/
def publish_es (cfg : MessageConfig) (msg : Message) (content_text : String) : PipeM Unit := do
  if msg.content.type = TEXT ∧ content_text ≠ "" ∧ cfg.es_publisher = true then
    let event := es_event msg content_text
    match ← op (esPublish event) with
    | .ok () => return
    | .thrown => if cfg.es_outbox then op (esEnqueue event)

/-- A failed delivery is tried once more, then dropped. -/
def retry_once (redelivered : Bool) : ConsumeAction :=
  if redelivered then .NackDiscard else .NackRequeue

/-- The message has been committed. -/
def after_commit (cfg : MessageConfig) (internal_msg : InternalMessage) (e : Extracted) :
    PipeM ConsumeAction := do
  let msg := internal_msg.message
  mark_idempotency_persisted_ cfg msg.sender_id msg.client_msg_id msg.message_id.toUInt64
  publish_push cfg internal_msg
  publish_es cfg msg e.content_text
  return .Ack

end OnDBMessage

open OnDBMessage

/-- `onDBMessage`, from the point where the body has been parsed. -/
def onDBMessage (cfg : MessageConfig) (internal_msg : InternalMessage) (redelivered : Bool) :
    PipeM ConsumeAction := do
  let msg := internal_msg.message
  match accepted_content msg.content with
  | none => return .NackDiscard
  | some e =>
    match ← op (insertMessage (row_of msg e) (timeline_of internal_msg)) with
    | .failed => return retry_once redelivered
    | .alreadyPersistent =>
      if ← op (selectById msg.message_id.toUInt64) then return .Ack
      return retry_once redelivered
    | .inserted => after_commit cfg internal_msg e

/-- A delivery to the consumer: the callback, then the ack or the reject. -/
def consume (cfg : MessageConfig) (internal_msg : InternalMessage) (redelivered : Bool) :
    PipeM Unit := do
  let action ← onDBMessage cfg internal_msg redelivered
  op (settle action)

/-- `convert_db_message_to_proto_`. -/
def convert_db_message_to_proto_ (db : MessageRow) : Message :=
  { message_id := db.message_id.toInt64
    conversation_id := db.session_id
    sender_id := db.user_id
    seq_id := db.seq_id
    client_msg_id := db.client_msg_id.getD ""
    status := ⟨db.status.num⟩
    created_at_ms := if db.create_time < 0 then 0 else db.create_time
    content :=
      if db.message_type = IMAGE.num then
        { type := IMAGE, body := some (.image { file_id := db.file_id }) }
      else if db.message_type = FILE.num then
        { type := FILE
          body := some (.file { file_id := db.file_id, file_name := db.file_name,
                                file_size := if 0 < db.file_size then db.file_size.toInt64
                                             else 0 }) }
      else if db.message_type = AUDIO.num then
        { type := AUDIO, body := some (.audio { file_id := db.file_id }) }
      else { type := TEXT, body := some (.text { text := db.content }) } }

end ChatNow
