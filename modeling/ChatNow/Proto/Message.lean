import Mathlib.Init

/-!
# The message schema

The records of `proto/message/message_types.proto`, `proto/message/message_internal.proto`,
`proto/common/envelope.proto`, `proto/common/auth/metadata.proto` and
`proto/transmite/transmite_service.proto`, field by field and under the schema's names.

Two readings are fixed here once:

* a proto3 **enum is open**: any 32-bit number can arrive in the field, named or not, so
  `MessageType` and `MessageStatus` wrap the number and their named values are constants of that
  type. The generated C++ enum is used in `switch` statements with a `default`, and what `default`
  does is exactly what is at stake for an unnamed number;
* a singular field without `optional` has no presence, so it is a plain field with the default of
  its type, while `optional` fields and `oneof` alternatives are `Option`s.

A `double` is kept as its 64-bit pattern: no modelled function computes with one.
-/

namespace ChatNow

/-- `MessageType`. -/
structure MessageType where
  /-- The number on the wire. -/
  num : Int32
  deriving DecidableEq, Inhabited

namespace MessageType

def MESSAGE_TYPE_UNSPECIFIED : MessageType := ⟨0⟩
def TEXT : MessageType := ⟨1⟩
def IMAGE : MessageType := ⟨2⟩
def FILE : MessageType := ⟨3⟩
def AUDIO : MessageType := ⟨4⟩
def VIDEO : MessageType := ⟨5⟩
def LOCATION : MessageType := ⟨6⟩
def STICKER : MessageType := ⟨7⟩
def SYSTEM_NOTICE : MessageType := ⟨8⟩

end MessageType

/-- `MessageStatus`. -/
structure MessageStatus where
  /-- The number on the wire. -/
  num : Int32
  deriving DecidableEq, Inhabited

namespace MessageStatus

def MESSAGE_STATUS_NORMAL : MessageStatus := ⟨0⟩
def MESSAGE_STATUS_RECALLED : MessageStatus := ⟨1⟩
def MESSAGE_STATUS_DELETED : MessageStatus := ⟨2⟩

end MessageStatus

/-! ### Message contents -/

structure TextContent where
  text : String := ""
  deriving DecidableEq, Inhabited

structure ImageContent where
  file_id : String := ""
  width : Int32 := 0
  height : Int32 := 0
  thumbnail_url : String := ""
  deriving DecidableEq, Inhabited

structure FileContent where
  file_id : String := ""
  file_name : String := ""
  file_size : Int64 := 0
  mime_type : String := ""
  deriving DecidableEq, Inhabited

structure AudioContent where
  file_id : String := ""
  duration_sec : Int32 := 0
  deriving DecidableEq, Inhabited

structure VideoContent where
  file_id : String := ""
  duration_sec : Int32 := 0
  width : Int32 := 0
  height : Int32 := 0
  thumbnail_url : String := ""
  deriving DecidableEq, Inhabited

structure LocationContent where
  latitude : UInt64 := 0
  longitude : UInt64 := 0
  name : String := ""
  address : String := ""
  deriving DecidableEq, Inhabited

structure StickerContent where
  sticker_id : String := ""
  pack_id : String := ""
  deriving DecidableEq, Inhabited

structure SystemNoticeContent where
  text : String := ""
  notice_type : String := ""
  deriving DecidableEq, Inhabited

/-- The `body` oneof of `MessageContent`. -/
inductive MessageBody
  | text (c : TextContent)
  | image (c : ImageContent)
  | file (c : FileContent)
  | audio (c : AudioContent)
  | video (c : VideoContent)
  | location (c : LocationContent)
  | sticker (c : StickerContent)
  | notice (c : SystemNoticeContent)
  deriving DecidableEq

/-- `MessageContent`. The `type` and the alternative of the oneof are set independently: nothing in
the schema ties them together. -/
structure MessageContent where
  type : MessageType := .MESSAGE_TYPE_UNSPECIFIED
  body : Option MessageBody := none
  deriving DecidableEq, Inhabited

namespace MessageContent

/-- Reading an alternative that is not set yields its default instance. -/
def text (c : MessageContent) : TextContent :=
  match c.body with
  | some (.text t) => t
  | _ => {}

def image (c : MessageContent) : ImageContent :=
  match c.body with
  | some (.image i) => i
  | _ => {}

def file (c : MessageContent) : FileContent :=
  match c.body with
  | some (.file f) => f
  | _ => {}

def audio (c : MessageContent) : AudioContent :=
  match c.body with
  | some (.audio a) => a
  | _ => {}

end MessageContent

/-! ### Messages -/

structure ReplyRef where
  replied_message_id : Int64 := 0
  replied_sender_id : String := ""
  replied_message_type : MessageType := .MESSAGE_TYPE_UNSPECIFIED
  content_preview : String := ""
  is_recalled : Bool := false
  deriving DecidableEq, Inhabited

structure ForwardInfo where
  forward_from_user_id : String := ""
  forward_at_ms : Int64 := 0
  source_conversation_id : String := ""
  deriving DecidableEq, Inhabited

structure ReactionGroup where
  emoji : String := ""
  count : Int32 := 0
  recent_user_ids : List String := []
  self_reacted : Bool := false
  deriving DecidableEq, Inhabited

/-- `Message`. -/
structure Message where
  message_id : Int64 := 0
  conversation_id : String := ""
  content : MessageContent := {}
  sender_id : String := ""
  created_at_ms : Int64 := 0
  edited_at_ms : Int64 := 0
  seq_id : UInt64 := 0
  user_seq : UInt64 := 0
  client_msg_id : String := ""
  status : MessageStatus := .MESSAGE_STATUS_NORMAL
  reply_to : Option ReplyRef := none
  mentioned_user_ids : List String := []
  forward_info : Option ForwardInfo := none
  reactions : List ReactionGroup := []
  is_pinned : Bool := false
  deriving DecidableEq, Inhabited

/-- `internal.UserSeqPair`. -/
structure UserSeqPair where
  user_id : String := ""
  user_seq : UInt64 := 0
  deriving DecidableEq, Inhabited

/-- `internal.InternalMessage`, what travels from Transmite to the message service and from there
to Push. -/
structure InternalMessage where
  message : Message := {}
  member_id_list : List String := []
  user_seqs : List UserSeqPair := []
  is_large_group : Bool := false
  deriving DecidableEq, Inhabited

/-- `internal.ESIndexEvent`. -/
structure ESIndexEvent where
  message_id : Int64 := 0
  conversation_id : String := ""
  sender_id : String := ""
  content_text : String := ""
  created_at_ms : Int64 := 0
  seq_id : UInt64 := 0
  message_type : MessageType := .MESSAGE_TYPE_UNSPECIFIED
  deriving DecidableEq, Inhabited

/-! ### The SendMessage call -/

/-- `ResponseHeader`. -/
structure ResponseHeader where
  request_id : String := ""
  success : Bool := false
  error_code : Int32 := 0
  error_message : String := ""
  deriving DecidableEq, Inhabited

/-- `SendMessageReq`. -/
structure SendMessageReq where
  request_id : String := ""
  conversation_id : String := ""
  content : MessageContent := {}
  client_msg_id : String := ""
  reply_to : Option ReplyRef := none
  mentioned_user_ids : List String := []
  forward_info : Option ForwardInfo := none
  deriving DecidableEq, Inhabited

/-- `SendMessageRsp`. -/
structure SendMessageRsp where
  header : ResponseHeader := {}
  message : Option Message := none
  deriving DecidableEq, Inhabited

/-! ### Metadata -/

/-- `RpcMetadata`. -/
structure RpcMetadata where
  trace_id : String := ""
  user_id : String := ""
  device_id : String := ""
  jwt_jti : String := ""
  deriving DecidableEq, Inhabited

end ChatNow
