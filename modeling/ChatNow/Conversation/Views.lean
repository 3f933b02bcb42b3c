import ChatNow.Common.EsIndex
import ChatNow.Conversation.Handlers
import ChatNow.Lib.Exec
import ChatNow.Message.SyncMessages

/-!
# The queries for conversations

`ListConversations` and `GetConversation` of `conversation/source/conversation_server.h`, with
`fetch_last_message_` and the cache of previews (`LastMessage` of `common/dao/data_redis.hpp`).

Both show of every conversation its unread count, a difference of a column of `conversation` and one
of `conversation_member`, and the preview of a message, which comes from the cache or from a call of
`SyncMessages` with the caller's cursor.
-/

namespace ChatNow

open Prog

/-! ### Responses -/

/-- `MessagePreview`. -/
structure MessagePreview where
  message_id : Int64 := 0
  sender_id : String := ""
  message_type : MessageType := .MESSAGE_TYPE_UNSPECIFIED
  content_preview : String := ""
  sent_at_ms : Int64 := 0
  status : MessageStatus := .MESSAGE_STATUS_NORMAL
  deriving DecidableEq

namespace conversation

/-- `Conversation`, with the field that only the queries fill. -/
structure ConversationEntry extends Conversation where
  last_message : Option MessagePreview := none
  deriving DecidableEq

/-- `ListConversationsRsp`, with the fields of its page. -/
structure ListConversationsRsp where
  conversations : List ConversationEntry := []
  has_more : Bool := false
  total_count : ℕ := 0
  deriving DecidableEq

end conversation

/-- What a query answers beside its header. -/
inductive ViewRsp
  | list (rsp : conversation.ListConversationsRsp)
  | conversation (c : conversation.ConversationEntry)

/-- The conversations in a response. -/
def ViewRsp.entries : ViewRsp → List conversation.ConversationEntry
  | list rsp => rsp.conversations
  | conversation c => [c]

/-- What `HANDLE_RPC` makes of an exception that is no `ServiceError`. -/
def internal_error : ServiceError := ⟨error.kSystemInternalError, "internal error"⟩

/-! ### The view -/

/-- `OrderedConversationView`, with the columns that are read. -/
structure OrderedConversationView where
  conversation_id : String
  conversation_name : Option String
  conversation_type : ConversationType
  create_time : ℤ
  member_count : ℤ
  status : ConversationStatus
  avatar_id : Option String
  peer_user_id : Option String
  max_seq : ℕ
  update_time : ℤ
  pin_time : Option ℤ
  muted : Bool
  visible : Bool
  role : MemberRole
  last_read_seq : ℕ
  last_ack_seq : ℕ
  join_time : ℤ
  draft : Option String

namespace OrderedConversationView

variable (v : OrderedConversationView)

/-- The member row that is put together for `fill_self_member_info_`. -/
def member (auth_uid : String) : ConversationMember where
  conversation_id := v.conversation_id
  user_id := auth_uid
  role := v.role
  muted := v.muted
  visible := v.visible
  pin_time := v.pin_time
  last_read_seq := v.last_read_seq
  last_ack_seq := v.last_ack_seq
  join_time := v.join_time
  draft := v.draft

/-- The order of the last two columns. -/
def active_before (w : OrderedConversationView) : Bool :=
  if v.max_seq = w.max_seq then w.update_time ≤ v.update_time else w.max_seq < v.max_seq

/-- The order of the query: what is pinned first, by the time of the pin. -/
def before (w : OrderedConversationView) : Bool :=
  match v.pin_time, w.pin_time with
  | some _, none => true
  | none, some _ => false
  | none, none => v.active_before w
  | some x, some y => if x = y then v.active_before w else y < x

/-- What the list shows of a row, beside the preview. -/
def entry (cfg : ConversationServiceConfig) (auth_uid : String)
    (peer_map : List (String × String)) : conversation.Conversation where
  conversation_id := v.conversation_id
  type := v.conversation_type.toProto
  name := (v.conversation_name.or (v.peer_user_id.bind (peer_map.lookup ·))).getD ""
  avatar_url := (v.avatar_id.map (avatar_url_of_ cfg)).getD ""
  created_at_ms := v.create_time
  member_count := v.member_count
  status := v.status.toProto
  self := some (fill_self_member_info_ (v.member auth_uid) v.max_seq)

end OrderedConversationView

/-! ### Operations -/

/-- The operations of the queries, over the texts of the cache. -/
inductive ViewOp (Text : Type)
  /-- An operation on the tables of conversations. -/
  | conv (o : ConvOp)
  /-- An operation of the message service. -/
  | message (o : PipeOp)
  /-- `list_ordered_by_user`. -/
  | listOrderedByUser (uid : String)
  /-- `GetMultiUserInfo`, as far as the caller looks at it: the nicknames. -/
  | getMultiUserInfo (uids : List String)
  /-- `LastMessage::get`. -/
  | lastMsgGet (key : String)
  /-- `LastMessage::set`. -/
  | lastMsgSet (key : String) (preview_json : Text)
  /-- Whether there is a node of the message service, and the call to it does not fail. -/
  | callMessage
  /-- The preview is copied into the response. -/
  | copyPreview (cid : String) (preview : MessagePreview)
  /-- The response is sent to the caller. -/
  | reply (auth_uid : String) (rsp : Except ServiceError ViewRsp)

/-- What each operation answers. -/
@[reducible]
def ViewOp.Res {Text : Type} : ViewOp Text → Type
  | conv o => ConvOp.Res o
  | message o => PipeOp.Res o
  | listOrderedByUser _ => List OrderedConversationView
  | getMultiUserInfo _ => List (String × String)
  | lastMsgGet _ => Option Text
  | callMessage => Bool
  | _ => Unit

/-- Programs of the queries. -/
abbrev ViewM (Text : Type) := Prog (ViewOp Text) ViewOp.Res

open ViewOp

section Queries

variable (lib : JsonLib)

/-! ### The last message -/

/-- `serialize_preview_json_`. -/
def serialize_preview_json_ (p : MessagePreview) : lib.Text :=
  lib.Serialize
    [("mid", .int p.message_id.toInt),
      ("sid", .string p.sender_id),
      ("type", .int p.message_type.num.toInt),
      ("ts", .int p.sent_at_ms.toInt),
      ("status", .int p.status.num.toInt)]

/-- The fields that `parse_preview_json_` reads; nothing when one of them has another type. -/
def preview_of_json (root : Json.Object) : Option MessagePreview := do
  let mid ← (root.get "mid" (.int 0)).asInt
  let sid ← (root.get "sid" (.string "")).asString
  let type ← (root.get "type" (.int 0)).asInt
  let ts ← (root.get "ts" (.int 0)).asInt
  let status ← (root.get "status" (.int 0)).asInt
  return { message_id := .ofInt mid, sender_id := sid, message_type := ⟨.ofInt type⟩,
           sent_at_ms := .ofInt ts, status := ⟨.ofInt status⟩ }

/-- `parse_preview_json_`, nothing when it returns false. -/
def parse_preview_json_ (json : lib.Text) : Reply (Option MessagePreview) :=
  match lib.UnSerialize json with
  | none => .ok none
  | some root =>
    match preview_of_json root with
    | none => .thrown
    | some preview => .ok (some preview)

/-- What is read back is what has been written, but for the text, which is not. -/
theorem parse_serialize (p : MessagePreview) :
    parse_preview_json_ lib (serialize_preview_json_ lib p) =
      .ok (some { p with content_preview := "" }) := by
  have hfields : preview_of_json
      [("mid", .int p.message_id.toInt), ("sid", .string p.sender_id),
        ("type", .int p.message_type.num.toInt), ("ts", .int p.sent_at_ms.toInt),
        ("status", .int p.status.num.toInt)] =
      some
        { message_id := .ofInt p.message_id.toInt, sender_id := p.sender_id
          message_type := ⟨.ofInt p.message_type.num.toInt⟩
          sent_at_ms := .ofInt p.sent_at_ms.toInt, status := ⟨.ofInt p.status.num.toInt⟩ } := rfl
  rw [Int64.ofInt_toInt, Int64.ofInt_toInt, Int32.ofInt_toInt, Int32.ofInt_toInt] at hfields
  rw [parse_preview_json_, serialize_preview_json_, lib.round_trip]
  simp only [hfields]

/-- The fields of a message that its preview has. -/
def preview_of (m : Message) : MessagePreview where
  message_id := m.message_id
  sender_id := m.sender_id
  message_type := m.content.type
  sent_at_ms := m.created_at_ms
  status := m.status

/-- The key of a preview in the cache. -/
def preview_key (cid caller_uid : String) (after_seq : UInt64) : String :=
  cid ++ ":" ++ caller_uid ++ ":" ++ toString after_seq.toNat

/-- The call of `SyncMessages`, and what becomes of its answer. -/
def sync_last_message (rid cid : String) (after_seq : UInt64) (caller_uid : String) :
    ViewM lib.Text (Option MessagePreview) := do
  if ← op callMessage then
    let mrsp ← (SyncMessages rid caller_uid cid after_seq 1).lift message
    match mrsp.header.success, mrsp.messages with
    | true, m :: _ =>
      op (lastMsgSet (preview_key cid caller_uid after_seq)
        (serialize_preview_json_ lib (preview_of m)))
      return some (preview_of m)
    | _, _ => return none
  else return none

/-- `fetch_last_message_`, nothing when it returns false. -/
def fetch_last_message_ (rid cid : String) (after_seq : UInt64) (caller_uid : String) :
    ViewM lib.Text (Reply (Option MessagePreview)) := do
  let cached ← op (lastMsgGet (preview_key cid caller_uid after_seq))
  match cached.map (parse_preview_json_ lib) with
  | some .thrown => return .thrown
  | some (.ok (some preview)) => return .ok (some preview)
  | _ =>
    let fetched ← sync_last_message lib rid cid after_seq caller_uid
    return .ok fetched

/-- The last message of a conversation goes into the response. -/
def last_message (rid cid : String) (last_read_seq : ℕ) (auth_uid : String) :
    ViewM lib.Text (Reply (Option MessagePreview)) := do
  match ← fetch_last_message_ lib rid cid (.ofNat last_read_seq) auth_uid with
  | .ok (some preview) =>
    op (copyPreview cid preview)
    return .ok (some preview)
  | r => return r

/-! ### The RPCs -/

/-- `fetch_user_infos_`. -/
def fetch_user_infos_ (uids : List String) : ViewM lib.Text (List (String × String)) :=
  if uids.isEmpty then return [] else op (getMultiUserInfo uids)

/-- The loop of `ListConversations`. -/
def list_loop (cfg : ConversationServiceConfig) (rid auth_uid : String)
    (peer_map : List (String × String)) : List OrderedConversationView →
    ViewM lib.Text (Reply (List conversation.ConversationEntry))
  | [] => return .ok []
  | v :: views => do
    if !v.visible || v.status = .DISMISSED then list_loop cfg rid auth_uid peer_map views
    else
      match ← last_message lib rid v.conversation_id v.last_read_seq auth_uid with
      | .thrown => return .thrown
      | .ok preview =>
        match ← list_loop cfg rid auth_uid peer_map views with
        | .thrown => return .thrown
        | .ok cs =>
          return .ok ({ v.entry cfg auth_uid peer_map with last_message := preview } :: cs)

/-- `ListConversations`. -/
def ListConversations (cfg : ConversationServiceConfig) (rid auth_uid : String) :
    ViewM lib.Text (Except ServiceError ViewRsp) := do
  let views ← op (listOrderedByUser auth_uid)
  let peer_map ← fetch_user_infos_ lib (views.filterMap (·.peer_user_id))
  match ← list_loop lib cfg rid auth_uid peer_map views with
  | .thrown => return .error internal_error
  | .ok cs => return .ok (.list { conversations := cs, total_count := cs.length })

/-- `GetConversation`. -/
def GetConversation (cfg : ConversationServiceConfig) (rid auth_uid cid : String) :
    ViewM lib.Text (Except ServiceError ViewRsp) := do
  match ← op (conv (.selectConv cid)) with
  | none => return .error ⟨error.kConversationNotFound, "conversation not found"⟩
  | some c =>
    if ← (require_member_ cid auth_uid).lift conv then
      let self ← op (conv (.selectMember cid auth_uid))
      match ← last_message lib rid cid ((self.map (·.last_read_seq)).getD 0) auth_uid with
      | .thrown => return .error internal_error
      | .ok preview =>
        return .ok (.conversation
          { updated_rsp cfg c with
            self := self.map (fill_self_member_info_ · c.max_seq), last_message := preview })
    else return .error ⟨error.kConversationNotMember, "not a member"⟩

/-- A query. -/
inductive ViewReq
  | list
  | get (cid : String)

/-- `HANDLE_RPC`. -/
def handle_view (cfg : ConversationServiceConfig) (rid auth_uid : String) (req : ViewReq) :
    ViewM lib.Text Unit := do
  let rsp ← match req with
    | .list => ListConversations lib cfg rid auth_uid
    | .get cid => GetConversation lib cfg rid auth_uid cid
  op (reply auth_uid rsp)

end Queries

end ChatNow
