import ChatNow.Push.FanOut

/-!
# What the consumer of the push exchange makes of its producers

Three functions of the message service publish on the push exchange: `onDBMessage` an
`InternalMessage`, `publish_recalled_notify_` and `publish_pin_notify_` a `NotifyMessage`. Its one
consumer, `onPushMessage`, parses every body as an `InternalMessage`.

On the wire a recall or pin is a varint under number 2 and a message under number 11 or 16. For
`InternalMessage` number 2 is a list of strings, so the varint has the wrong shape, and the other
numbers are unknown: the body parses, as a message **without members**, and is acked. The two
schemas agree on the chat messages alone; see `processedAs_iff`.
-/

namespace ChatNow

open Prog PushOp OnPushMessage Wire

/-! ### The producers -/

/-- The notification of `publish_recalled_notify_`. -/
def recalled_notify (cid : String) (mid : Int64) : NotifyMessage :=
  { notify_type := .MESSAGE_RECALLED_NOTIFY
    remarks := some (.message_recalled { conversation_id := cid, message_id := mid }) }

/-- The notification of `publish_pin_notify_`. -/
def pin_notify (cid : String) (mid : Int64) (actor_uid : String) (is_pinned : Bool) :
    NotifyMessage :=
  { notify_type := .PIN_CHANGED_NOTIFY
    remarks := some (.pin_changed { conversation_id := cid, message_id := mid,
                                    actor_user_id := actor_uid, is_pinned := is_pinned }) }

/-- What is published on the push exchange. -/
inductive PushPayload
  /-- By `publish_recalled_notify_`. -/
  | recalled (cid : String) (mid : Int64)
  /-- By `publish_pin_notify_`. -/
  | pin (cid : String) (mid : Int64) (actor_uid : String) (is_pinned : Bool)
  /-- By `onDBMessage`. -/
  | chat (internal_msg : InternalMessage)

namespace PushPayload

/-- The body. -/
def body : PushPayload → List UInt8
  | recalled cid mid => NotifyMessage.codec.serialize (recalled_notify cid mid)
  | pin cid mid actor_uid is_pinned =>
    NotifyMessage.codec.serialize (pin_notify cid mid actor_uid is_pinned)
  | chat internal_msg => InternalMessage.codec.serialize internal_msg

/-- The members of the conversation that the payload is about; a chat message brings them along. -/
def audience (members_of : String → List String) : PushPayload → List String
  | recalled cid _ => members_of cid
  | pin cid _ _ _ => members_of cid
  | chat internal_msg => internal_msg.member_id_list

/-- `n` is the notification that the payload encodes, with the same fields; a chat message is
notified with the member's own sequence number. -/
def Encodes : PushPayload → NotifyMessage → Prop
  | recalled cid mid, n =>
    n.notify_type = .MESSAGE_RECALLED_NOTIFY ∧
      n.remarks = some (.message_recalled { conversation_id := cid, message_id := mid })
  | pin cid mid actor_uid is_pinned, n =>
    n.notify_type = .PIN_CHANGED_NOTIFY ∧
      n.remarks = some (.pin_changed { conversation_id := cid, message_id := mid,
                                       actor_user_id := actor_uid, is_pinned := is_pinned })
  | chat internal_msg, n =>
    n.notify_type = .CHAT_MESSAGE_NOTIFY ∧ ∃ seq, n.remarks =
      some (.new_message_info { message_info := { internal_msg.message with user_seq := seq } })

end PushPayload

/-! ### The consumer -/

/-- The member has a device on this instance or on a named peer. -/
def Reachable (cfg : PushConfig) (route : RouteEntry) : Prop :=
  HasLocal cfg route ∨ ∃ p, OnPeer cfg route p

/-- The notification was sent to a device of the member here, or handed to an instance for it. -/
def RoutedTo (payload : PushPayload) (tr : PushTrace) (uid : String) : Prop :=
  (∃ did n sent, ⟨localSend uid did n, sent⟩ ∈ tr ∧ payload.Encodes n) ∨
    ∃ host req, ⟨pushBatch host req, true⟩ ∈ tr ∧ uid ∈ req.user_id_list ∧ payload.Encodes req.notify

/-- **Agreement on the wire**: whenever the consumer acks the payload, the notification that it
encodes was routed to every reachable member of its conversation. -/
def ProcessedAs (cfg : PushConfig) (trace_id : String) (members_of : String → List String)
    (payload : PushPayload) : Prop :=
  ∀ table tr, (onPushMessage cfg trace_id payload.body).Runs (FixedRoutes table) tr .Ack →
    ∀ uid ∈ payload.audience members_of, Reachable cfg (resolved cfg table uid) →
      RoutedTo payload tr uid

variable {cfg : PushConfig} {trace_id : String} {members_of : String → List String}

theorem encodes_payload_for (internal_msg : InternalMessage) (trace_id uid : String) :
    (PushPayload.chat internal_msg).Encodes (payload_for internal_msg trace_id uid) := by
  rw [payload_for]
  split
  · next s _ => exact ⟨rfl, s, rfl⟩
  · exact ⟨rfl, internal_msg.message.user_seq, rfl⟩

theorem encodes_notify_template (internal_msg : InternalMessage) (trace_id : String) :
    (PushPayload.chat internal_msg).Encodes (notify_template internal_msg.message trace_id) :=
  ⟨rfl, internal_msg.message.user_seq, rfl⟩

/-- A chat message is processed as such. -/
theorem chat_processedAs (internal_msg : InternalMessage) :
    ProcessedAs cfg trace_id members_of (.chat internal_msg) := by
  intro table tr h uid huid hreach
  rw [PushPayload.body, onPushMessage_serialize] at h
  obtain ⟨hlocal, hpeer⟩ := fan_out_runs h huid
  by_cases hl : HasLocal cfg (resolved cfg table uid)
  · obtain ⟨did, hd, hin⟩ := hl
    obtain ⟨tr₁, tr₂, n, rfl, -⟩ := hlocal did hd hin
    exact .inl ⟨did, _, n, List.mem_append_right _ List.mem_cons_self,
      encodes_payload_for internal_msg trace_id uid⟩
  · obtain ⟨p, hp⟩ := hreach.resolve_left hl
    obtain ⟨host, req, -, hreq, hmem, hnotify⟩ := hpeer hl p hp
    refine .inr ⟨host, req, hreq, hmem, ?_⟩
    rw [hnotify]
    exact encodes_notify_template internal_msg trace_id

/-! ### The misparse -/

/-- A field whose shape or number `InternalMessage` does not know is skipped. -/
theorem merge_varint_two (m : InternalMessage) (n : ℕ) :
    InternalMessage.codec.merge m (2, .varint n) = some m := rfl

theorem merge_unknown_number (m : InternalMessage) (k : ℕ) (v : Value) (hk : 4 < k) :
    InternalMessage.codec.merge m (k, v) = some m := by
  refine InternalMessage.codec.merge_unknown m (k, v) ?_
  show k ∉ [1, 2, 3, 4]
  simp only [List.mem_cons, List.not_mem_nil, or_false]
  omega

/-- A body of a varint under number 2 and a value under a number above 4 parses as the empty
message. -/
theorem parse_as_empty {n : NotifyMessage} {t k : ℕ} {v : Value} (hk : 4 < k)
    (h : NotifyMessage.codec.encode n = [(2, .varint t), (k, v)]) :
    InternalMessage.codec.parse (NotifyMessage.codec.serialize n) = some {} := by
  rw [MessageCodec.parse, MessageCodec.mergeFrom, MessageCodec.parse_serialize_fields,
    Option.bind_some, h, List.foldlM_cons, merge_varint_two, Option.bind_eq_bind, Option.bind_some,
    List.foldlM_cons, merge_unknown_number _ k v hk]
  rfl

theorem recalled_parses_as_empty (cid : String) (mid : Int64) :
    InternalMessage.codec.parse (PushPayload.recalled cid mid).body = some {} :=
  parse_as_empty (by decide) (show NotifyMessage.codec.encode (recalled_notify cid mid) =
    [(2, .varint 5), (11, .len (NotifyMessageRecalled.codec.serialize ⟨cid, mid⟩))] from rfl)

theorem pin_parses_as_empty (cid : String) (mid : Int64) (actor_uid : String) (is_pinned : Bool) :
    InternalMessage.codec.parse (PushPayload.pin cid mid actor_uid is_pinned).body = some {} :=
  parse_as_empty (by decide)
    (show NotifyMessage.codec.encode (pin_notify cid mid actor_uid is_pinned) =
      [(2, .varint 9), (16, .len (NotifyPinChanged.codec.serialize ⟨cid, mid, actor_uid,
        is_pinned⟩))] from rfl)

theorem parses_as_empty {payload : PushPayload} (h : ∀ im, payload ≠ .chat im) :
    InternalMessage.codec.parse payload.body = some {} := by
  cases payload with
  | recalled cid mid => exact recalled_parses_as_empty cid mid
  | pin cid mid actor_uid is_pinned => exact pin_parses_as_empty cid mid actor_uid is_pinned
  | chat im => exact absurd rfl (h im)

/-- The empty message has nobody to go to, and is acked. -/
theorem onPushMessage_of_empty {payload : PushPayload} (h : ∀ im, payload ≠ .chat im) :
    onPushMessage cfg trace_id payload.body = .ret .Ack := by
  rw [onPushMessage, parses_as_empty h]
  rfl

/-! ### When the two sides agree -/

/-- Everybody has one device, on this instance. -/
def everyoneHere (cfg : PushConfig) : RouteTable := fun _ ↦ AList.singleton "d" cfg.instance_id

theorem reachable_everyoneHere (cfg : PushConfig) (ho : cfg.online_route = true) (uid : String) :
    Reachable cfg (resolved cfg (everyoneHere cfg) uid) := by
  rw [resolved, if_pos ho]
  exact .inl ⟨"d", List.mem_singleton_self _, rfl⟩

theorem not_reachable_of_no_route (ho : cfg.online_route = false) (table : RouteTable)
    (uid : String) : ¬ Reachable cfg (resolved cfg table uid) := by
  rw [resolved, if_neg (by simp [ho])]
  rintro (⟨_, hd, -⟩ | ⟨_, _, hd, -⟩) <;> cases hd

/-- **Producer and consumer agree exactly on chat messages**: a payload is processed as the
notification that it encodes if and only if it is a chat message, or there is nobody to notify — its
conversation has no members, or the instance has no route store to find them in. -/
theorem processedAs_iff (cfg : PushConfig) (trace_id : String) (members_of : String → List String)
    (payload : PushPayload) :
    ProcessedAs cfg trace_id members_of payload ↔
      (∃ internal_msg, payload = .chat internal_msg) ∨ payload.audience members_of = [] ∨
        cfg.online_route = false := by
  constructor
  · intro h
    by_contra hno
    obtain ⟨hchat, hmem, ho⟩ := by simpa only [not_or] using hno
    obtain ⟨uid, uids, haud⟩ := List.exists_cons_of_ne_nil hmem
    have hrun : (onPushMessage cfg trace_id payload.body).Runs (FixedRoutes (everyoneHere cfg)) []
        .Ack := by
      rw [onPushMessage_of_empty fun im him ↦ hchat ⟨im, him⟩]
      exact .ret _
    have huid : uid ∈ payload.audience members_of := haud ▸ List.mem_cons_self
    have hreach := reachable_everyoneHere cfg (Bool.eq_true_of_not_eq_false ho) uid
    rcases h _ [] hrun uid huid hreach with ⟨_, _, _, hmem, -⟩ | ⟨_, _, hmem, -⟩ <;> cases hmem
  · rintro (⟨im, rfl⟩ | hnil | ho)
    · exact chat_processedAs im
    · intro table tr _ uid huid
      rw [hnil] at huid
      cases huid
    · intro table tr _ uid _ hreach
      exact absurd hreach (not_reachable_of_no_route ho table uid)

/-- A recall in a conversation of two is acked by the consumer and reaches nobody. -/
theorem recall_not_processed :
    ¬ ProcessedAs ⟨"push-1", true, true⟩ "" (fun _ ↦ ["alice", "bob"]) (.recalled "c1" 7) ∧
      onPushMessage ⟨"push-1", true, true⟩ "" (PushPayload.recalled "c1" 7).body = .ret .Ack := by
  have hack : onPushMessage ⟨"push-1", true, true⟩ "" (PushPayload.recalled "c1" 7).body =
      .ret .Ack := onPushMessage_of_empty (by simp)
  refine ⟨fun h ↦ ?_, hack⟩
  have hrun : (onPushMessage ⟨"push-1", true, true⟩ "" (PushPayload.recalled "c1" 7).body).Runs
      (FixedRoutes (everyoneHere ⟨"push-1", true, true⟩)) [] .Ack := by
    rw [hack]
    exact .ret _
  have hreach := reachable_everyoneHere ⟨"push-1", true, true⟩ rfl "alice"
  rcases h _ [] hrun "alice" List.mem_cons_self hreach with ⟨_, _, _, hmem, -⟩ | ⟨_, _, hmem, -⟩ <;>
    cases hmem

end ChatNow
