import ChatNow.Message.Handlers
import ChatNow.Pipeline.Machine

/-!
# What the message service shows

The RPCs of `message/source/message_server.h` that return messages, as functions of the tables that
they read: `GetHistory`, `SyncMessages`, `GetMessagesById`, `ListPinnedMessages`, and
`SearchMessages`, which reads the index of messages instead (`common/dao/data_es.hpp`).

The rows of a query that fails on the way are those that have arrived; the search answers nothing
when it fails. How Elasticsearch matches a keyword with a text is a parameter. The reactions and pin
flags that decorate the messages are left out.
-/

namespace ChatNow

/-- The tables that are read. -/
structure ReadTables where
  /-- `message`. -/
  messages : List MessageRow := []
  /-- `user_timeline`. -/
  timeline : List UserTimeline := []
  /-- `message_pin`. -/
  pins : Table MessagePin.key := .empty
  /-- `conversation_member`. -/
  members : Table ConversationMember.key := .empty

/-- What the environment decides while an RPC reads. -/
structure ReadChoice where
  /-- How many rows of the messages arrive before the query fails. -/
  messages : Option ℕ := none
  /-- How many rows of the pins arrive before the query fails. -/
  pins : Option ℕ := none
  /-- The query for the latest sequence number fails. -/
  max_seq : Bool := false
  /-- The query for the caller's membership fails. -/
  self : Bool := false
  /-- The search fails. -/
  search : Bool := false

/-- The rows that arrive before the query fails. -/
def arriving {α : Type} (cut : Option ℕ) (rows : List α) : List α :=
  rows.take (cut.getD rows.length)

theorem mem_of_mem_arriving {α : Type} {cut : Option ℕ} {rows : List α} {a : α}
    (h : a ∈ arriving cut rows) : a ∈ rows :=
  List.mem_of_mem_take h

theorem arriving_none {α : Type} (rows : List α) : arriving none rows = rows := List.take_length

/-! ### Requests and responses -/

/-- `GetHistoryReq`. -/
structure GetHistoryReq where
  conversation_id : String
  before_seq : UInt64
  limit : Int32

/-- `GetHistoryRsp`, beside its header. -/
structure GetHistoryRsp where
  messages : List Message := []
  has_more : Bool := false
  deriving DecidableEq

/-- `SyncMessagesReq`. -/
structure SyncMessagesReq where
  conversation_id : String
  after_seq : UInt64
  limit : Int32

/-- `GetMessagesByIdReq`. -/
structure GetMessagesByIdReq where
  message_ids : List Int64

/-- `SearchMessagesReq`. -/
structure SearchMessagesReq where
  conversation_id : String
  keyword : String
  limit : Int32

/-- `ListPinnedReq`. -/
structure ListPinnedReq where
  conversation_id : String

/-- `kMaxSearchLimit`. -/
def kMaxSearchLimit : ℤ := 50

/-! ### The queries -/

/-- `select_history`. -/
def select_history (rows : List MessageRow) (cid : String) (before_seq : UInt64) (limit : ℕ) :
    List MessageRow :=
  ((rows.filter fun r ↦ r.session_id = cid ∧ r.seq_id < before_seq ∧
    r.status ≠ .DELETED).insertionSort fun a b ↦ b.seq_id ≤ a.seq_id).take limit

/-- `select_by_ids`. -/
def select_by_ids (rows : List MessageRow) (ids : List UInt64) : List MessageRow :=
  (rows.filter (·.message_id ∈ ids)).insertionSort fun a b ↦ a.seq_id ≤ b.seq_id

/-- A document of the index `message`. -/
structure EsMessage where
  user_id : String
  message_id : UInt64
  seq_id : UInt64
  /-- In seconds. -/
  create_time : Int64
  chat_session_id : String
  content : String
  status : Int32 := 0
  deriving DecidableEq

/-- The row that `ESMessage::search` makes of a document. -/
def EsMessage.row (d : EsMessage) : MessageRow where
  message_id := d.message_id
  seq_id := d.seq_id
  session_id := d.chat_session_id
  user_id := d.user_id
  message_type := MessageType.TEXT.num
  create_time := d.create_time * 1000
  content := d.content
  client_msg_id := none
  file_id := ""
  file_name := ""
  file_size := 0
  status := .NORMAL

/-- How the index of messages matches a keyword with a text. -/
abbrev EsMatch : Type := String → String → Bool

/-- `ESMessage::search`, the latest document first. -/
def EsMessage.search (es : EsMatch) (docs : List EsMessage) (key ssid : String) (size : ℕ) :
    List MessageRow :=
  (((docs.filter fun d ↦ d.chat_session_id = ssid ∧ es key d.content = true ∧
    d.status = 0).insertionSort fun a b ↦ b.create_time ≤ a.create_time).take size).map (·.row)

/-! ### The RPCs -/

namespace ReadTables

variable (t : ReadTables) (c : ReadChoice)

/-- `ConversationMemberTable::select_self`. -/
def select_self (cid uid : String) : Option ConversationMember :=
  if c.self then none else t.members.find (cid, uid)

/-- `require_member_`. -/
def require_member_ (cid uid : String) : Except ServiceError Unit :=
  if uid = MessageService.kSystemUserId then .ok ()
  else match t.select_self c cid uid with
    | none => .error not_member
    | some self => if self.is_quit then .error not_member else .ok ()

/-- A limit that has to be in the range. -/
def check_limit (limit : Int32) (max : ℤ) : Except ServiceError Unit :=
  if limit.toInt ≤ 0 ∨ max < limit.toInt then
    .error ⟨error.kSystemInvalidArgument, "limit out of range"⟩
  else .ok ()

/-- A list of ids that has to be of a size in the range. -/
def check_message_ids (ids : List Int64) : Except ServiceError Unit :=
  if ids.length = 0 ∨ kMaxLimit < ids.length then
    .error ⟨error.kSystemInvalidArgument, "message_ids size out of range"⟩
  else .ok ()

/-- `GetHistory`, for a caller that is logged in. -/
def GetHistory (uid : String) (req : GetHistoryReq) : Except ServiceError GetHistoryRsp := do
  check_limit req.limit kMaxLimit
  if req.before_seq = 0 then throw ⟨error.kSystemInvalidArgument, "before_seq must > 0"⟩
  t.require_member_ c req.conversation_id uid
  let limit := req.limit.toInt.toNat
  let db_msgs := arriving c.messages
    (select_history t.messages req.conversation_id req.before_seq (limit + 1))
  let (db_msgs, has_more) := SyncMessages.page limit db_msgs
  return { messages := db_msgs.map convert_db_message_to_proto_, has_more }

/-- `SyncMessages`, for a caller that is logged in. -/
def SyncMessages (uid : String) (req : SyncMessagesReq) : Except ServiceError SyncMessagesRsp := do
  check_limit req.limit kMaxLimit
  t.require_member_ c req.conversation_id uid
  let limit := req.limit.toInt.toNat
  let db_msgs := arriving c.messages
    (select_after t.messages req.conversation_id req.after_seq (limit + 1))
  let (db_msgs, has_more) := SyncMessages.page limit db_msgs
  return { messages := db_msgs.map convert_db_message_to_proto_
           has_more := has_more
           latest_seq := if c.max_seq then 0 else select_max_seq t.messages req.conversation_id }

/-- The caller is a member of the conversation of the row. -/
def shows (uid : String) (m : MessageRow) : Bool :=
  (t.select_self c m.session_id uid).any fun self ↦ !self.is_quit

/-- `GetMessagesById`, for a caller that is logged in. -/
def GetMessagesById (uid : String) (req : GetMessagesByIdReq) :
    Except ServiceError (List Message) := do
  check_message_ids req.message_ids
  let db_msgs := arriving c.messages (select_by_ids t.messages (req.message_ids.map (·.toUInt64)))
  return (db_msgs.filter (t.shows c uid)).map convert_db_message_to_proto_

/-- `SearchMessages`, for a caller that is logged in. -/
def SearchMessages (es : EsMatch) (docs : List EsMessage) (uid : String) (req : SearchMessagesReq) :
    Except ServiceError (List Message) := do
  if req.keyword = "" then throw ⟨error.kMessageContentInvalid, "keyword empty"⟩
  check_limit req.limit kMaxSearchLimit
  t.require_member_ c req.conversation_id uid
  if c.search then return []
  return (EsMessage.search es docs req.keyword req.conversation_id req.limit.toInt.toNat).map
    convert_db_message_to_proto_

/-- `ListPinnedMessages`, for a caller that is logged in. -/
def ListPinnedMessages (uid : String) (req : ListPinnedReq) :
    Except ServiceError (List Message) := do
  t.require_member_ c req.conversation_id uid
  let mids := arriving c.pins
    (MessagePinTable.list_by_conversation t.pins req.conversation_id kPinLimit)
  let db_msgs := arriving c.messages (select_by_ids t.messages mids)
  return (db_msgs.filter (·.status ≠ .DELETED)).map convert_db_message_to_proto_

end ReadTables

end ChatNow
