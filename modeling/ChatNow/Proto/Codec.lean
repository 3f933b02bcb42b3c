import ChatNow.Lib.Codec
import ChatNow.Proto.Notify

/-!
# The schemas on the wire

The field numbers and types of `message_types.proto`, `message_internal.proto`, `notify.proto` and
`metadata.proto`. Each schema is a product of its fields in the order of their numbers, seen as the
record of `Message.lean` or `Notify.lean`; that reading back yields what was written comes with the
codec.
-/

namespace ChatNow

open Wire MessageCodec ValueCodec

/-! ### Enums -/

def messageType : ValueCodec MessageType :=
  int32.map ⟨MessageType.mk, MessageType.num, fun _ ↦ rfl, fun _ ↦ rfl⟩

def messageStatus : ValueCodec MessageStatus :=
  int32.map ⟨MessageStatus.mk, MessageStatus.num, fun _ ↦ rfl, fun _ ↦ rfl⟩

def notifyType : ValueCodec NotifyType :=
  int32.map ⟨NotifyType.mk, NotifyType.num, fun _ ↦ rfl, fun _ ↦ rfl⟩

/-! ### Contents -/

def TextContent.codec : MessageCodec TextContent :=
  (field 1 string).map ⟨TextContent.mk, TextContent.text, fun _ ↦ rfl, fun _ ↦ rfl⟩

def ImageContent.codec : MessageCodec ImageContent :=
  ((field 1 string).append <| (field 2 int32).append <| (field 3 int32).append <|
    field 4 string).map
    ⟨fun p ↦ ⟨p.1, p.2.1, p.2.2.1, p.2.2.2⟩, fun c ↦ (c.file_id, c.width, c.height, c.thumbnail_url),
      fun _ ↦ rfl, fun _ ↦ rfl⟩

def FileContent.codec : MessageCodec FileContent :=
  ((field 1 string).append <| (field 2 string).append <| (field 3 int64).append <|
    field 4 string).map
    ⟨fun p ↦ ⟨p.1, p.2.1, p.2.2.1, p.2.2.2⟩,
      fun c ↦ (c.file_id, c.file_name, c.file_size, c.mime_type), fun _ ↦ rfl, fun _ ↦ rfl⟩

def AudioContent.codec : MessageCodec AudioContent :=
  ((field 1 string).append <| field 2 int32).map
    ⟨fun p ↦ ⟨p.1, p.2⟩, fun c ↦ (c.file_id, c.duration_sec), fun _ ↦ rfl, fun _ ↦ rfl⟩

def VideoContent.codec : MessageCodec VideoContent :=
  ((field 1 string).append <| (field 2 int32).append <| (field 3 int32).append <|
    (field 4 int32).append <| field 5 string).map
    ⟨fun p ↦ ⟨p.1, p.2.1, p.2.2.1, p.2.2.2.1, p.2.2.2.2⟩,
      fun c ↦ (c.file_id, c.duration_sec, c.width, c.height, c.thumbnail_url), fun _ ↦ rfl,
      fun _ ↦ rfl⟩

def LocationContent.codec : MessageCodec LocationContent :=
  ((field 1 double).append <| (field 2 double).append <| (field 3 string).append <|
    field 4 string).map
    ⟨fun p ↦ ⟨p.1, p.2.1, p.2.2.1, p.2.2.2⟩, fun c ↦ (c.latitude, c.longitude, c.name, c.address),
      fun _ ↦ rfl, fun _ ↦ rfl⟩

def StickerContent.codec : MessageCodec StickerContent :=
  ((field 1 string).append <| field 2 string).map
    ⟨fun p ↦ ⟨p.1, p.2⟩, fun c ↦ (c.sticker_id, c.pack_id), fun _ ↦ rfl, fun _ ↦ rfl⟩

def SystemNoticeContent.codec : MessageCodec SystemNoticeContent :=
  ((field 1 string).append <| field 2 string).map
    ⟨fun p ↦ ⟨p.1, p.2⟩, fun c ↦ (c.text, c.notice_type), fun _ ↦ rfl, fun _ ↦ rfl⟩

/-- The alternatives of `body` as a sum, in the order of their numbers. -/
abbrev BodySum := TextContent ⊕ ImageContent ⊕ FileContent ⊕ AudioContent ⊕ VideoContent ⊕
  LocationContent ⊕ StickerContent ⊕ SystemNoticeContent

def MessageBody.equivSum : BodySum ≃ MessageBody where
  toFun
    | .inl c => .text c
    | .inr (.inl c) => .image c
    | .inr (.inr (.inl c)) => .file c
    | .inr (.inr (.inr (.inl c))) => .audio c
    | .inr (.inr (.inr (.inr (.inl c)))) => .video c
    | .inr (.inr (.inr (.inr (.inr (.inl c))))) => .location c
    | .inr (.inr (.inr (.inr (.inr (.inr (.inl c)))))) => .sticker c
    | .inr (.inr (.inr (.inr (.inr (.inr (.inr c)))))) => .notice c
  invFun
    | .text c => .inl c
    | .image c => .inr (.inl c)
    | .file c => .inr (.inr (.inl c))
    | .audio c => .inr (.inr (.inr (.inl c)))
    | .video c => .inr (.inr (.inr (.inr (.inl c))))
    | .location c => .inr (.inr (.inr (.inr (.inr (.inl c)))))
    | .sticker c => .inr (.inr (.inr (.inr (.inr (.inr (.inl c))))))
    | .notice c => .inr (.inr (.inr (.inr (.inr (.inr (.inr c))))))
  left_inv x := by rcases x with _ | _ | _ | _ | _ | _ | _ | _ <;> rfl
  right_inv b := by cases b <;> rfl

/-- One alternative of a `oneof`. -/
def alternative {α : Type} (n : ℕ) (c : MessageCodec α) (hn : n ≠ 0 := by decide) :
    MessageCodec (Option α) :=
  field n (optionalMessage c) hn

def MessageBody.codec : MessageCodec (Option MessageBody) :=
  let sticker := oneof (alternative 8 StickerContent.codec)
    (alternative 9 SystemNoticeContent.codec) rfl rfl
  let location := oneof (alternative 7 LocationContent.codec) sticker rfl rfl
  let video := oneof (alternative 6 VideoContent.codec) location rfl rfl
  let audio := oneof (alternative 5 AudioContent.codec) video rfl rfl
  let file := oneof (alternative 4 FileContent.codec) audio rfl rfl
  let image := oneof (alternative 3 ImageContent.codec) file rfl rfl
  (oneof (alternative 2 TextContent.codec) image rfl rfl).map MessageBody.equivSum.optionCongr

def MessageContent.codec : MessageCodec MessageContent :=
  ((field 1 messageType).append MessageBody.codec).map
    ⟨fun p ↦ ⟨p.1, p.2⟩, fun c ↦ (c.type, c.body), fun _ ↦ rfl, fun _ ↦ rfl⟩

/-! ### Messages -/

def ReplyRef.codec : MessageCodec ReplyRef :=
  ((field 1 int64).append <| (field 2 string).append <| (field 3 messageType).append <|
    (field 4 string).append <| field 5 bool).map
    ⟨fun p ↦ ⟨p.1, p.2.1, p.2.2.1, p.2.2.2.1, p.2.2.2.2⟩,
      fun r ↦ (r.replied_message_id, r.replied_sender_id, r.replied_message_type,
        r.content_preview, r.is_recalled), fun _ ↦ rfl, fun _ ↦ rfl⟩

def ForwardInfo.codec : MessageCodec ForwardInfo :=
  ((field 1 string).append <| (field 2 int64).append <| field 3 string).map
    ⟨fun p ↦ ⟨p.1, p.2.1, p.2.2⟩,
      fun f ↦ (f.forward_from_user_id, f.forward_at_ms, f.source_conversation_id), fun _ ↦ rfl,
      fun _ ↦ rfl⟩

def ReactionGroup.codec : MessageCodec ReactionGroup :=
  ((field 1 string).append <| (field 2 int32).append <| (field 3 repeatedString).append <|
    field 4 bool).map
    ⟨fun p ↦ ⟨p.1, p.2.1, p.2.2.1, p.2.2.2⟩,
      fun r ↦ (r.emoji, r.count, r.recent_user_ids, r.self_reacted), fun _ ↦ rfl, fun _ ↦ rfl⟩

/-- The fields 1 to 8 of `Message`. -/
def Message.headCodec : MessageCodec
    (Int64 × String × MessageContent × String × Int64 × Int64 × UInt64 × UInt64) :=
  (field 1 int64).append <| (field 2 string).append <|
    (field 3 (message MessageContent.codec)).append <| (field 4 string).append <|
    (field 5 int64).append <| (field 6 int64).append <| (field 7 uint64).append <| field 8 uint64

/-- The fields 9 to 15 of `Message`. -/
def Message.tailCodec : MessageCodec
    (String × MessageStatus × Option ReplyRef × List String × Option ForwardInfo ×
      List ReactionGroup × Bool) :=
  (field 9 string).append <| (field 10 messageStatus).append <|
    (field 11 (optionalMessage ReplyRef.codec)).append <| (field 12 repeatedString).append <|
    (field 13 (optionalMessage ForwardInfo.codec)).append <|
    (field 14 (repeatedMessage ReactionGroup.codec)).append <| field 15 bool

def Message.codec : MessageCodec Message :=
  (Message.headCodec.append Message.tailCodec).map
    { toFun := fun ⟨⟨a, b, c, d, e, f, g, h⟩, i, j, k, l, m, n, o⟩ ↦
        ⟨a, b, c, d, e, f, g, h, i, j, k, l, m, n, o⟩
      invFun := fun ⟨a, b, c, d, e, f, g, h, i, j, k, l, m, n, o⟩ ↦
        ⟨⟨a, b, c, d, e, f, g, h⟩, i, j, k, l, m, n, o⟩
      left_inv := fun _ ↦ rfl
      right_inv := fun _ ↦ rfl }

def UserSeqPair.codec : MessageCodec UserSeqPair :=
  ((field 1 string).append <| field 2 uint64).map
    ⟨fun p ↦ ⟨p.1, p.2⟩, fun u ↦ (u.user_id, u.user_seq), fun _ ↦ rfl, fun _ ↦ rfl⟩

def InternalMessage.codec : MessageCodec InternalMessage :=
  ((field 1 (ValueCodec.message Message.codec)).append <| (field 2 repeatedString).append <|
    (field 3 (repeatedMessage UserSeqPair.codec)).append <| field 4 bool).map
    ⟨fun p ↦ ⟨p.1, p.2.1, p.2.2.1, p.2.2.2⟩,
      fun m ↦ (m.message, m.member_id_list, m.user_seqs, m.is_large_group), fun _ ↦ rfl,
      fun _ ↦ rfl⟩

/-! ### Notifications -/

def NotifyNewMessage.codec : MessageCodec NotifyNewMessage :=
  (field 1 (message Message.codec)).map ⟨NotifyNewMessage.mk, NotifyNewMessage.message_info,
    fun _ ↦ rfl, fun _ ↦ rfl⟩

def NotifyMessageRecalled.codec : MessageCodec NotifyMessageRecalled :=
  ((field 1 string).append <| field 2 int64).map
    ⟨fun p ↦ ⟨p.1, p.2⟩, fun n ↦ (n.conversation_id, n.message_id), fun _ ↦ rfl, fun _ ↦ rfl⟩

def NotifyPinChanged.codec : MessageCodec NotifyPinChanged :=
  ((field 1 string).append <| (field 2 int64).append <| (field 3 string).append <|
    field 4 bool).map
    ⟨fun p ↦ ⟨p.1, p.2.1, p.2.2.1, p.2.2.2⟩,
      fun n ↦ (n.conversation_id, n.message_id, n.actor_user_id, n.is_pinned), fun _ ↦ rfl,
      fun _ ↦ rfl⟩

def NotifyRemarks.equivSum :
    NotifyNewMessage ⊕ NotifyMessageRecalled ⊕ NotifyPinChanged ≃ NotifyRemarks where
  toFun
    | .inl n => .new_message_info n
    | .inr (.inl n) => .message_recalled n
    | .inr (.inr n) => .pin_changed n
  invFun
    | .new_message_info n => .inl n
    | .message_recalled n => .inr (.inl n)
    | .pin_changed n => .inr (.inr n)
  left_inv x := by rcases x with _ | _ | _ <;> rfl
  right_inv n := by cases n <;> rfl

def NotifyRemarks.codec : MessageCodec (Option NotifyRemarks) :=
  let recalled := oneof (alternative 11 NotifyMessageRecalled.codec)
    (alternative 16 NotifyPinChanged.codec) rfl rfl
  (oneof (alternative 6 NotifyNewMessage.codec) recalled rfl rfl).map
    NotifyRemarks.equivSum.optionCongr

def NotifyMessage.codec : MessageCodec NotifyMessage :=
  ((field 1 optionalString).append <| (field 2 notifyType).append <|
    NotifyRemarks.codec.append <| field 14 optionalString).map
    ⟨fun p ↦ ⟨p.1, p.2.1, p.2.2.2, p.2.2.1⟩,
      fun n ↦ (n.notify_event_id, n.notify_type, n.remarks, n.trace_id), fun _ ↦ rfl,
      fun _ ↦ rfl⟩

def RpcMetadata.codec : MessageCodec RpcMetadata :=
  ((field 1 string).append <| (field 2 string).append <| (field 3 string).append <|
    field 4 string).map
    ⟨fun p ↦ ⟨p.1, p.2.1, p.2.2.1, p.2.2.2⟩,
      fun m ↦ (m.trace_id, m.user_id, m.device_id, m.jwt_jti), fun _ ↦ rfl, fun _ ↦ rfl⟩

end ChatNow
