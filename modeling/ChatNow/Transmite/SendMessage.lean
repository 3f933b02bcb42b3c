import ChatNow.Common.ErrorCodes
import ChatNow.Common.ReliabilityState
import ChatNow.Pipeline.Signature

/-!
# SendMessage

`TransmiteServiceImpl::SendMessage` of `transmite/source/transmite_server.h`, in the stages its own
comments number: the content check (②), the idempotency gate (③), the admission checks (④–⑥), the
assembly of the message (⑦–⑨), and the publish with its confirm callback (⑪).

Three mechanics of the C++ text become explicit here.

* `err_response` deletes the idempotency key when the request owns it, so every stage that can
  reject is told whether it does (`idem_key_set`).
* The gate runs inside one `try` block whose handler only logs: a Redis exception anywhere in it
  lets the request through **without** the key (fail-open).
* The confirm callback runs on another thread after the handler has returned, but the handler does
  nothing after posting the publish and `done_called` lets only one of the callback and the
  exception handler act. So the callback is the continuation of the request, after `awaitConfirm`.

An exception that no stage catches — from the id generator, or from a Redis lock inside
`resolve_members` — unwinds the handler; the closure guard then runs with the response as it stands.
-/

namespace ChatNow

open Prog PipeOp MessageType

/-- `LARGE_GROUP_THRESHOLD`: from here on a group is read-diffused and gets no user sequences. -/
def LARGE_GROUP_THRESHOLD : ℕ := 200

/-- Which optional collaborators the service was built with. -/
structure TransmiteConfig where
  /-- `_redis` is set. -/
  redis : Bool := true
  /-- `_rate_limiter` is set. -/
  rate_limiter : Bool := true

/-- How a stage of the handler ends. -/
inductive Stage (α : Type)
  /-- The request goes on. -/
  | proceed (a : α)
  /-- `return err_response(rid, code, msg)`. -/
  | reject (e : ServiceError)
  /-- An exception leaves the handler. -/
  | thrown

namespace SendMessage

/-- `err_response`: give the key back if the request owns it, then answer. -/
def err_response (cfg : TransmiteConfig) (idem_key : String) (idem_key_set : Bool) (rid : String)
    (e : ServiceError) : PipeM Unit := do
  if idem_key_set && idem_key ≠ "" && cfg.redis then
    let _ ← op (redisDel idem_key)
  op (reply { header := { request_id := rid, success := false, error_code := e.code,
                          error_message := e.message } })

/-- ② A message with an attachment must name an uploaded file. Contents of any other type pass. -/
def check_content (content : MessageContent) : Option ServiceError :=
  if content.type = IMAGE then
    if content.image.file_id = "" then some ⟨error.kSystemInvalidArgument, "请先上传图片再发送"⟩ else none
  else if content.type = FILE then
    if content.file.file_id = "" then some ⟨error.kSystemInvalidArgument, "请先上传文件再发送"⟩ else none
  else if content.type = AUDIO then
    if content.audio.file_id = "" then some ⟨error.kSystemInvalidArgument, "请先上传语音再发送"⟩ else none
  else none

/-- How the idempotency gate ends. -/
inductive Gate
  /-- The request has been answered. -/
  | answered
  /-- The request goes on, owning the key or not. -/
  | proceed (idem_key_set : Bool)

/-- The key of the request, empty when the gate is skipped. -/
def idem_key (cfg : TransmiteConfig) (uid client_msg_id : String) : String :=
  if client_msg_id ≠ "" && cfg.redis then idempotency_key_for uid client_msg_id else ""

/-- The value a request writes before it works. -/
def pending : String := serialize_idempotency_state ⟨.Pending, 0⟩

/-- The success response that repeats a message known from before. -/
def duplicate_response (rid : String) (msg : Message) : SendMessageRsp :=
  { header := { request_id := rid, success := true }, message := some msg }

/-- The state under the key; an absent key reads as the default `IdempotencyState`. -/
def cached_state : Option String → IdempotencyState
  | some value => parse_idempotency_state value
  | none => ⟨.Empty, 0⟩

/-- ③ The idempotency gate. -/
def idempotency_gate (cfg : TransmiteConfig) (uid client_msg_id rid : String) : PipeM Gate := do
  if client_msg_id = "" || !cfg.redis then return .proceed false
  let idem_key := idempotency_key_for uid client_msg_id
  let in_flight : ServiceError := ⟨error.kSystemUnavailable, "duplicate request in flight"⟩
  match ← op (redisSetNx idem_key pending) with
  | .thrown => return .proceed false
  | .ok true => return .proceed true
  | .ok false =>
    match ← op (redisGet idem_key) with
    | .thrown => return .proceed false
    | .ok cached =>
      let state := cached_state cached
      if state.status = .Accepted ∨ state.status = .Persisted then
        let persisted_msg ← op (selectByClientMsg uid client_msg_id)
        op (reply (duplicate_response rid
          (persisted_msg.getD { message_id := (UInt64.ofNat state.message_id).toInt64 })))
        return .answered
      else if state.status = .Corrupt then
        let _ ← op (redisDel idem_key)
        match ← op (redisSetNx idem_key pending) with
        | .thrown => return .proceed false
        | .ok true => return .proceed true
        | .ok false =>
          err_response cfg idem_key false rid in_flight
          return .answered
      else
        match ← op (selectByClientMsg uid client_msg_id) with
        | some persisted_msg =>
          op (reply (duplicate_response rid persisted_msg))
          return .answered
        | none =>
          err_response cfg idem_key false rid in_flight
          return .answered

/-- `resolve_members` with up to `n` further tries while it is neither non-empty nor confirmed
empty. -/
def resolve_members_retry (ssid : String) : ℕ → PipeM (Reply MembersResult)
  | 0 => op (resolveMembers ssid)
  | n + 1 => do
    match ← op (resolveMembers ssid) with
    | .thrown => return .thrown
    | .ok r =>
      if !r.members.isEmpty || r.confirmed_empty then return .ok r
      resolve_members_retry ssid n

/-- ⑤–⑥ The sender's profile, the members, and the sender among them. -/
def resolve_stage (uid ssid : String) : PipeM (Stage (List String)) := do
  match ← op (resolveUserInfo uid) with
  | .thrown => return .thrown
  | .ok false => return .reject ⟨error.kSystemUnavailable, "获取用户信息失败"⟩
  | .ok true =>
    match ← resolve_members_retry ssid 2 with
    | .thrown => return .thrown
    | .ok members_result =>
      let member_id_list := members_result.members
      if member_id_list.isEmpty then
        return .reject ⟨error.kConversationNotFound, "会话已解散或不存在"⟩
      if !member_id_list.contains uid then
        return .reject ⟨error.kConversationNotMember, "无发消息权限"⟩
      return .proceed member_id_list

/-- ④–⑥ The rate limits, then the lookups. -/
def admission (cfg : TransmiteConfig) (uid ssid : String) : PipeM (Stage (List String)) := do
  if cfg.rate_limiter then
    if !(← op (allowUser uid)) then
      return .reject ⟨error.kSystemUnavailable, "rate_limited"⟩
    if !(← op (allowSession ssid)) then
      return .reject ⟨error.kSystemUnavailable, "rate_limited"⟩
  resolve_stage uid ssid

/-- The message that a request becomes. -/
def message_of (uid : String) (request : SendMessageReq) (session_seq id : ℕ) (ms : Int64) :
    Message :=
  { message_id := (UInt64.ofNat id).toInt64
    conversation_id := request.conversation_id
    created_at_ms := ms
    content := request.content
    sender_id := uid
    seq_id := UInt64.ofNat session_seq
    client_msg_id := request.client_msg_id
    reply_to := request.reply_to
    mentioned_user_ids := request.mentioned_user_ids
    forward_info := request.forward_info }

/-- The user sequences of a write-diffused message, member by member. -/
def user_seq_pairs (members : List String) (user_seqs : List ℕ) : List UserSeqPair :=
  List.zipWith (fun uid seq ↦ ⟨uid, UInt64.ofNat seq⟩) members user_seqs

/-- ⑦–⑧ Sequence numbers, the id and the internal message. -/
def assemble (uid : String) (request : SendMessageReq) (member_id_list : List String) :
    PipeM (Stage InternalMessage) := do
  let session_seq ← op (nextSessionSeq request.conversation_id)
  if session_seq = 0 then
    return .reject ⟨error.kSystemUnavailable, "序号生成失败"⟩
  match ← op nextId with
  | .thrown => return .thrown
  | .ok id =>
    let ms ← op nowMs
    let is_large := decide (LARGE_GROUP_THRESHOLD ≤ member_id_list.length)
    let internal_msg : InternalMessage :=
      { message := message_of uid request session_seq id ms
        member_id_list := member_id_list
        is_large_group := is_large }
    if is_large then return .proceed internal_msg
    let user_seqs ← op (nextUserSeqBatch member_id_list)
    if user_seqs.length ≠ member_id_list.length then
      return .reject ⟨error.kSystemUnavailable, "用户序号生成失败"⟩
    return .proceed { internal_msg with user_seqs := user_seq_pairs member_id_list user_seqs }

/-- A failed publish gives the key back, whoever owns it, and answers. -/
def publish_failed (cfg : TransmiteConfig) (idem_key rid msg : String) : PipeM Unit := do
  if idem_key ≠ "" && cfg.redis then
    let _ ← op (redisDel idem_key)
  op (reply { header := { request_id := rid, success := false,
                          error_code := error.kSystemUnavailable, error_message := msg } })

/-- ⑪ Publish, and the confirm callback. -/
def publish (cfg : TransmiteConfig) (idem_key rid : String) (internal_msg : InternalMessage) :
    PipeM Unit := do
  let msg := internal_msg.message
  match ← op (publishConfirm internal_msg) with
  | .thrown => publish_failed cfg idem_key rid "MQ 不可用"
  | .ok () =>
    match ← op awaitConfirm with
    | .Acked =>
      if idem_key ≠ "" && cfg.redis then
        let _ ← op (redisSet idem_key
          (serialize_idempotency_state ⟨.Accepted, msg.message_id.toUInt64.toNat⟩))
      op (reply { header := { request_id := rid, success := true }, message := some msg })
    | _ => publish_failed cfg idem_key rid "消息发送失败，请重试"

/-- ④–⑪ for a request that has passed the gate. -/
def process (cfg : TransmiteConfig) (uid : String) (request : SendMessageReq) (idem_key : String)
    (idem_key_set : Bool) : PipeM Unit := do
  let rid := request.request_id
  match ← admission cfg uid request.conversation_id with
  | .thrown => op (reply {})
  | .reject e => err_response cfg idem_key idem_key_set rid e
  | .proceed member_id_list =>
    match ← assemble uid request member_id_list with
    | .thrown => op (reply {})
    | .reject e => err_response cfg idem_key idem_key_set rid e
    | .proceed internal_msg => publish cfg idem_key rid internal_msg

end SendMessage

open SendMessage in
/-- `SendMessage`, for a caller whose metadata names `auth`, or fails to. -/
def SendMessage (cfg : TransmiteConfig) (auth : Except ServiceError String)
    (request : SendMessageReq) : PipeM Unit := do
  let rid := request.request_id
  match auth with
  | .error e => err_response cfg "" false rid e
  | .ok uid =>
    match check_content request.content with
    | some e => err_response cfg "" false rid e
    | none =>
      match ← idempotency_gate cfg uid request.client_msg_id rid with
      | .answered => return
      | .proceed idem_key_set =>
        process cfg uid request (idem_key cfg uid request.client_msg_id) idem_key_set

end ChatNow
