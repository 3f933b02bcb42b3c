import ChatNow.Common.HandleRpc
import ChatNow.Gateway.Entrances

/-!
# From an HTTP request to a handler

`handle_request` of `gateway/source/gateway_server.h`, through which every HTTP request goes: the
table of routes, `jwt_authenticate`, the trace id, and `forward`, which makes the call to a service
and gives it metadata (`gateway_auth.hpp`, `gateway_trace.hpp`).

The request messages are those of many schemas; what a route parses and sends on is a parameter
(`GatewayConfig.parse`). A token is checked against a run of the identity service, as in
`Entrances.lean`.

* `forwarded_identity`: for whom the handlers behind the gateway run.
* `trace_id_shown_iff`: whether the trace id in the response is the one that the services log.
-/

namespace ChatNow

open Prog Wire MessageCodec

namespace Gateway

/-! ### Requests and routes -/

/-- `httplib::Request`. -/
structure HttpRequest where
  path : String
  headers : List (String × String)
  body : List UInt8

/-- `headers.find`: the names of headers are compared without case. -/
def HttpRequest.header (req : HttpRequest) (name : String) : Option String :=
  (req.headers.find? fun h ↦
    h.1.toList.map Char.toLower = name.toList.map Char.toLower).map (·.2)

/-- `GatewayAuth`. -/
inductive GatewayAuth
  | WHITELISTED
  | JWT_REQUIRED
  deriving DecidableEq

/-- `GatewayRoute`, with the method that its handler calls. -/
structure GatewayRoute where
  path : String
  service_name : String
  auth : GatewayAuth
  method : String
  timeout_ms : ℕ

/-- `route`. -/
def route (path service_name : String) (auth : GatewayAuth) (method : String)
    (timeout_ms : ℕ := 3000) : GatewayRoute :=
  { path, service_name, auth, method, timeout_ms }

/-- What the gateway was built with. -/
structure GatewayConfig where
  identity_svc : String
  relationship_svc : String
  conversation_svc : String
  message_svc : String
  transmite_svc : String
  media_svc : String
  presence_svc : String
  /-- The request message of a method, as it is parsed of a body and sent on. -/
  parse : String → List UInt8 → Option (List UInt8)

/-- `register_routes`. -/
def register_routes (cfg : GatewayConfig) : List GatewayRoute :=
  [route "/service/identity/register" cfg.identity_svc .WHITELISTED "Register",
   route "/service/identity/login" cfg.identity_svc .WHITELISTED "Login",
   route "/service/identity/send_verify_code" cfg.identity_svc .WHITELISTED "SendVerifyCode",
   route "/service/identity/refresh_token" cfg.identity_svc .WHITELISTED "RefreshToken",
   route "/service/identity/logout" cfg.identity_svc .JWT_REQUIRED "Logout",
   route "/service/identity/get_profile" cfg.identity_svc .JWT_REQUIRED "GetProfile",
   route "/service/identity/update_profile" cfg.identity_svc .JWT_REQUIRED "UpdateProfile",
   route "/service/identity/search_users" cfg.identity_svc .JWT_REQUIRED "SearchUsers",
   route "/service/identity/get_multi_info" cfg.identity_svc .JWT_REQUIRED "GetMultiUserInfo",
   route "/service/relationship/list_friends" cfg.relationship_svc .JWT_REQUIRED "ListFriends",
   route "/service/relationship/send_friend_request" cfg.relationship_svc .JWT_REQUIRED
      "SendFriendRequest",
   route "/service/relationship/handle_friend_request" cfg.relationship_svc .JWT_REQUIRED
      "HandleFriendRequest",
   route "/service/relationship/remove_friend" cfg.relationship_svc .JWT_REQUIRED "RemoveFriend",
   route "/service/relationship/search_friends" cfg.relationship_svc .JWT_REQUIRED "SearchFriends",
   route "/service/relationship/block_user" cfg.relationship_svc .JWT_REQUIRED "BlockUser",
   route "/service/relationship/unblock_user" cfg.relationship_svc .JWT_REQUIRED "UnblockUser",
   route "/service/relationship/list_blocked" cfg.relationship_svc .JWT_REQUIRED "ListBlockedUsers",
   route "/service/relationship/list_pending" cfg.relationship_svc .JWT_REQUIRED
      "ListPendingRequests",
   route "/service/conversation/list" cfg.conversation_svc .JWT_REQUIRED "ListConversations",
   route "/service/conversation/get" cfg.conversation_svc .JWT_REQUIRED "GetConversation",
   route "/service/conversation/create" cfg.conversation_svc .JWT_REQUIRED "CreateConversation",
   route "/service/conversation/update" cfg.conversation_svc .JWT_REQUIRED "UpdateConversation",
   route "/service/conversation/dismiss" cfg.conversation_svc .JWT_REQUIRED "DismissConversation",
   route "/service/conversation/add_members" cfg.conversation_svc .JWT_REQUIRED "AddMembers",
   route "/service/conversation/remove_members" cfg.conversation_svc .JWT_REQUIRED "RemoveMembers",
   route "/service/conversation/transfer_owner" cfg.conversation_svc .JWT_REQUIRED "TransferOwner",
   route "/service/conversation/change_role" cfg.conversation_svc .JWT_REQUIRED "ChangeMemberRole",
   route "/service/conversation/list_members" cfg.conversation_svc .JWT_REQUIRED "ListMembers",
   route "/service/conversation/set_mute" cfg.conversation_svc .JWT_REQUIRED "SetMute",
   route "/service/conversation/set_pin" cfg.conversation_svc .JWT_REQUIRED "SetPin",
   route "/service/conversation/set_visible" cfg.conversation_svc .JWT_REQUIRED "SetVisible",
   route "/service/conversation/quit" cfg.conversation_svc .JWT_REQUIRED "QuitConversation",
   route "/service/conversation/mark_read" cfg.conversation_svc .JWT_REQUIRED "MarkRead",
   route "/service/conversation/save_draft" cfg.conversation_svc .JWT_REQUIRED "SaveDraft",
   route "/service/conversation/search" cfg.conversation_svc .JWT_REQUIRED "SearchConversations",
   route "/service/conversation/get_member_ids" cfg.conversation_svc .JWT_REQUIRED "GetMemberIds",
   route "/service/message/sync" cfg.message_svc .JWT_REQUIRED "SyncMessages" 10000,
   route "/service/message/get_history" cfg.message_svc .JWT_REQUIRED "GetHistory",
   route "/service/message/get_by_id" cfg.message_svc .JWT_REQUIRED "GetMessagesById",
   route "/service/message/search" cfg.message_svc .JWT_REQUIRED "SearchMessages",
   route "/service/message/recall" cfg.message_svc .JWT_REQUIRED "RecallMessage",
   route "/service/message/add_reaction" cfg.message_svc .JWT_REQUIRED "AddReaction",
   route "/service/message/remove_reaction" cfg.message_svc .JWT_REQUIRED "RemoveReaction",
   route "/service/message/get_reactions" cfg.message_svc .JWT_REQUIRED "GetReactions",
   route "/service/message/pin" cfg.message_svc .JWT_REQUIRED "PinMessage",
   route "/service/message/unpin" cfg.message_svc .JWT_REQUIRED "UnpinMessage",
   route "/service/message/list_pinned" cfg.message_svc .JWT_REQUIRED "ListPinnedMessages",
   route "/service/message/delete" cfg.message_svc .JWT_REQUIRED "DeleteMessages",
   route "/service/message/clear" cfg.message_svc .JWT_REQUIRED "ClearConversation",
   route "/service/message/update_read_ack" cfg.message_svc .JWT_REQUIRED "UpdateReadAck",
   route "/service/message/select_by_client_msg_id" cfg.message_svc .JWT_REQUIRED
      "SelectByClientMsgId",
   route "/service/transmite/send" cfg.transmite_svc .JWT_REQUIRED "SendMessage" 1000,
   route "/service/media/apply_upload" cfg.media_svc .JWT_REQUIRED "ApplyUpload",
   route "/service/media/complete_upload" cfg.media_svc .JWT_REQUIRED "CompleteUpload",
   route "/service/media/apply_download" cfg.media_svc .JWT_REQUIRED "ApplyDownload",
   route "/service/media/get_file_info" cfg.media_svc .JWT_REQUIRED "GetFileInfo",
   route "/service/media/speech_recognition" cfg.media_svc .JWT_REQUIRED "SpeechRecognition",
   route "/service/presence/get" cfg.presence_svc .JWT_REQUIRED "GetPresence",
   route "/service/presence/batch_get" cfg.presence_svc .JWT_REQUIRED "BatchGetPresence",
   route "/service/presence/subscribe" cfg.presence_svc .JWT_REQUIRED "SubscribePresence",
   route "/service/presence/unsubscribe" cfg.presence_svc .JWT_REQUIRED "UnsubscribePresence",
   route "/service/presence/send_typing" cfg.presence_svc .JWT_REQUIRED "SendTyping"]

/-- The methods that can be called without a token. -/
theorem method_of_whitelisted {cfg : GatewayConfig} {r : GatewayRoute}
    (h : r ∈ register_routes cfg) (hr : r.auth = .WHITELISTED) :
    r.method ∈ ["Register", "Login", "SendVerifyCode", "RefreshToken"] := by
  have hall : (register_routes cfg).Forall fun r ↦ r.auth = .WHITELISTED →
      r.method ∈ ["Register", "Login", "SendVerifyCode", "RefreshToken"] := by
    simp [register_routes, route]
  exact List.forall_iff_forall_mem.1 hall r h hr

/-! ### The text -/

/-- How a call to a service ends. -/
inductive RpcResult
  | ok (rsp : List UInt8)
  /-- `cntl.Failed()`, with the text of the error. -/
  | failed (timed_out : Bool) (text : String)

/-- The operations of the gateway. -/
inductive GatewayOp
  /-- An operation of `jwt_authenticate`. -/
  | auth (o : AuthOp)
  /-- The two numbers of a new trace id. -/
  | random
  /-- `LogContext::set`. -/
  | setLog (trace_id user_id device_id : String)
  /-- `LogContext::clear`. -/
  | clearLog
  /-- `_channels->choose`. -/
  | choose (service_name : String)
  /-- The call of a method, with its attachment. -/
  | call (service_name method : String) (timeout_ms : ℕ) (attachment request : List UInt8)

/-- What each operation answers. -/
@[reducible]
def GatewayOp.Res : GatewayOp → Type
  | auth o => o.Res
  | random => UInt64 × UInt64
  | setLog _ _ _ => Unit
  | clearLog => Unit
  | choose _ => Bool
  | call _ _ _ _ _ => RpcResult

/-- Programs of the gateway. -/
abbrev GatewayM := Prog GatewayOp GatewayOp.Res

open GatewayOp

/-- What a response has in its body. -/
inductive GatewayBody
  /-- `{"error":"not found"}` in JSON. -/
  | not_found
  /-- A `ResponseHeader`. -/
  | refused (header : ResponseHeader)
  /-- A response message with nothing but its header. -/
  | failed (header : ResponseHeader)
  /-- The response message of a service. -/
  | message (rsp : List UInt8)

/-- `httplib::Response`. -/
structure HttpResponse where
  status : ℕ := 200
  /-- The header `X-Trace-Id`. -/
  trace_id : Option String := none
  body : GatewayBody

/-- `resolve_trace_id`. -/
def resolve_trace_id (req : HttpRequest) : GatewayM String := do
  match (req.header "X-Trace-Id").filter (is_valid_trace_id ·) with
  | some trace_id => return trace_id
  | none =>
    let (hi, lo) ← op random
    return gen_trace_id hi lo

/-- What `gateway_setup_trace` and `apply_auth_to_brpc` write into the metadata. -/
def metadata (trace_id : String) (a : AuthInfo) : RpcMetadata where
  trace_id := trace_id
  user_id := a.user_id
  device_id := a.device_id
  jwt_jti := if a.authed then a.jwt_jti else ""

/-- `write_err`. -/
def write_err (code : Int32) (msg : String) : HttpResponse :=
  { body := .failed (failed_header "" ⟨code, msg⟩) }

/-- `forward`. -/
def forward (cfg : GatewayConfig) (r : GatewayRoute) (req : HttpRequest) (a : AuthInfo) :
    GatewayM HttpResponse := do
  match cfg.parse r.method req.body with
  | none => return write_err error.kSystemInvalidArgument "parse request body failed"
  | some pb_req =>
    if !(← op (choose r.service_name)) then
      return write_err error.kSystemUnavailable "no backend available"
    let trace_id ← resolve_trace_id req
    op (setLog trace_id "" "")
    op (setLog trace_id a.user_id a.device_id)
    match ← op (call r.service_name r.method r.timeout_ms
        (RpcMetadata.codec.serialize (metadata trace_id a)) pb_req) with
    | .ok rsp => return { body := .message rsp }
    | .failed timed_out text =>
      return write_err (if timed_out then error.kSystemTimeout else error.kSystemUnavailable) text

/-- The call of `jwt_authenticate`, for the header of a request. -/
def authenticate (r : GatewayRoute) (req : HttpRequest) : GatewayM (Except ServiceError AuthInfo) :=
  (jwt_authenticate (req.header "Authorization") (decide (r.auth = .WHITELISTED))).lift auth

/-- `handle_request`, for a request whose route has been found. -/
def serve (cfg : GatewayConfig) (r : GatewayRoute) (req : HttpRequest) :
    GatewayM HttpResponse := do
  match ← authenticate r req with
  | .error e => return { status := 401, body := .refused (failed_header "" e) }
  | .ok a =>
    let trace_id ← resolve_trace_id req
    op (setLog trace_id "" "")
    let rsp ← forward cfg r req a
    return { rsp with trace_id := some trace_id }

/-- `handle_request`; the log context is cleared when it returns. -/
def handle_request (cfg : GatewayConfig) (req : HttpRequest) : GatewayM HttpResponse := do
  match (register_routes cfg).find? fun r ↦ req.path = r.path with
  | none =>
    op clearLog
    return { status := 404, body := .not_found }
  | some r =>
    let rsp ← serve cfg r req
    op clearLog
    return rsp

/-! ### Paths -/

/-- A call with its answer. -/
abbrev GatewayCall := Σ o : GatewayOp, o.Res

/-- The call of a method. -/
def isCall : GatewayCall → Bool
  | ⟨.call _ _ _ _ _, _⟩ => true
  | _ => false

/-- What has been drawn. -/
def drawn : GatewayCall → Option (UInt64 × UInt64)
  | ⟨random, r⟩ => some r
  | _ => none

section Paths

variable {ok : (o : GatewayOp) → o.Res → Prop} {path : List GatewayCall} {req : HttpRequest}
  {cfg : GatewayConfig} {r : GatewayRoute}

/-- A header in which a token is found has been made for it. -/
theorem eq_of_bearer_token {auth_header token : String}
    (h : bearer_token auth_header = some token) : auth_header = kPrefix ++ token := by
  rw [bearer_token] at h
  split at h
  · cases h
  · next hno =>
    obtain rfl := Option.some.inj h
    obtain ⟨-, hpre⟩ := not_or.1 hno
    obtain ⟨rest, hrest⟩ := List.isPrefixOf_iff_prefix.1 (Bool.of_not_eq_false hpre)
    apply String.toList_inj.1
    rw [String.toList_append, String.toList_ofList, ← hrest, List.drop_left]

/-- How a request gets past `jwt_authenticate`. -/
theorem jwt_authenticate_ok {authorization : Option String} {whitelisted : Bool}
    {ok : (o : AuthOp) → o.Res → Prop} {path : List (Σ o : AuthOp, o.Res)} {a : AuthInfo}
    (h : (jwt_authenticate authorization whitelisted).Runs ok path (.ok a)) :
    (whitelisted = true ∧ a = {}) ∨
      (whitelisted = false ∧ ∃ token claims, authorization = some (kPrefix ++ token) ∧
        ok (.verify token false) (.ok claims) ∧ a = auth_info claims ∧
        (claims.jti ≠ "" → ∃ there, ok (.getRevoked claims.jti) there ∧ there ≠ .ok true)) := by
  unfold jwt_authenticate at h
  split at h
  · next hwhite =>
    obtain ⟨-, ha⟩ := runs_ret.1 h
    exact .inl ⟨hwhite, Except.ok.inj ha⟩
  · next hwhite =>
    refine .inr ⟨Bool.of_not_eq_true hwhite, ?_⟩
    cases authorization with
    | none => cases (runs_ret.1 h).2
    | some auth_header =>
      dsimp only at h
      cases hbearer : bearer_token auth_header with
      | none =>
        rw [hbearer] at h
        cases (runs_ret.1 h).2
      | some token =>
        rw [hbearer] at h
        obtain ⟨r, path', -, hr, hrest⟩ := runs_op_bind.1 h
        rcases r with (e | _) | claims
        · cases (runs_ret.1 hrest).2
        · cases (runs_ret.1 hrest).2
        · refine ⟨token, claims, congrArg some (eq_of_bearer_token hbearer), hr, ?_⟩
          obtain ⟨tr₁, there, tr₂, -, hcheck, hend⟩ := runs_bind.1 hrest
          cases there with
          | true => cases (runs_ret.1 hend).2
          | false =>
            refine ⟨Except.ok.inj (runs_ret.1 hend).2, fun hjti ↦ ?_⟩
            rw [JwtStore.is_revoked, if_neg hjti] at hcheck
            obtain ⟨r, path', -, hr, hret⟩ := runs_op_bind.1 hcheck
            refine ⟨r, hr, ?_⟩
            rintro rfl
            cases (runs_ret.1 hret).2

/-- A trace id that a request brings is taken, and nothing is drawn then; else one is made of what
is drawn. -/
theorem resolve_trace_id_spec {t : String} (h : (resolve_trace_id req).Runs ok path t) :
    path.filter isCall = [] ∧
      ((req.header "X-Trace-Id").filter (is_valid_trace_id ·) = some t ∧
          path.filterMap drawn = [] ∨
        (req.header "X-Trace-Id").filter (is_valid_trace_id ·) = none ∧
          ∃ d, path.filterMap drawn = [d] ∧ t = gen_trace_id d.1 d.2) := by
  rw [resolve_trace_id] at h
  split at h
  · next trace_id htrace =>
    obtain ⟨rfl, rfl⟩ := runs_ret.1 h
    exact ⟨rfl, .inl ⟨htrace, rfl⟩⟩
  · next htrace =>
    obtain ⟨d, path', rfl, -, hret⟩ := runs_op_bind.1 h
    obtain ⟨rfl, rfl⟩ := runs_ret.1 hret
    exact ⟨rfl, .inr ⟨htrace, d, rfl, rfl⟩⟩

/-- What `forward` does: one call at most, with the metadata of whoever has been authenticated and a
trace id that it resolves itself. -/
theorem forward_spec {a : AuthInfo} {rsp : HttpResponse}
    (h : (forward cfg r req a).Runs ok path rsp) :
    path.filter isCall = [] ∨
      ∃ t path₁ request reply, (resolve_trace_id req).Runs ok path₁ t ∧
        path.filterMap drawn = path₁.filterMap drawn ∧
        path.filter isCall = [⟨.call r.service_name r.method r.timeout_ms
          (RpcMetadata.codec.serialize (metadata t a)) request, reply⟩] := by
  rw [forward] at h
  split at h
  · obtain ⟨rfl, -⟩ := runs_ret.1 h
    exact .inl rfl
  · next request hparse =>
    obtain ⟨found, path', rfl, -, h⟩ := runs_op_bind.1 h
    cases found with
    | false =>
      obtain ⟨rfl, -⟩ := runs_ret.1 h
      exact .inl rfl
    | true =>
      obtain ⟨path₁, t, path₂, rfl, htrace, h⟩ := runs_bind.1 h
      obtain ⟨-, path₃, rfl, -, h⟩ := runs_op_bind.1 h
      obtain ⟨-, path₄, rfl, -, h⟩ := runs_op_bind.1 h
      obtain ⟨reply, path₅, rfl, -, h⟩ := runs_op_bind.1 h
      have hnil : path₅ = [] := by
        cases reply with
        | ok _ => exact (runs_ret.1 h).1
        | failed _ _ => exact (runs_ret.1 h).1
      subst hnil
      obtain ⟨hcalls, -⟩ := resolve_trace_id_spec htrace
      refine .inr ⟨t, path₁, request, reply, htrace, ?_, ?_⟩
      · rw [List.filterMap_cons, List.filterMap_append]
        exact List.append_nil _
      · change (path₁ ++ _).filter isCall = _
        rw [List.filter_append, hcalls]
        rfl

/-- Authentication calls no service and draws nothing. -/
theorem authenticate_spec {result : Except ServiceError AuthInfo}
    (h : (authenticate r req).Runs ok path result) :
    path.filter isCall = [] ∧ path.filterMap drawn = [] ∧
      ∃ path', (jwt_authenticate (req.header "Authorization")
        (decide (r.auth = .WHITELISTED))).Runs (fun o ↦ ok (auth o)) path' result := by
  obtain ⟨path', rfl, hruns⟩ := runs_lift.1 h
  refine ⟨?_, ?_, path', hruns⟩
  · rw [List.filter_eq_nil_iff]
    intro e he
    obtain ⟨e', -, rfl⟩ := List.mem_map.1 he
    exact Bool.false_ne_true
  · rw [List.filterMap_eq_nil_iff]
    intro e he
    obtain ⟨e', -, rfl⟩ := List.mem_map.1 he
    rfl

/-- **What a request makes the gateway do**: nothing without a route or a token that counts, and
else one call at most, to the first route of the path. -/
theorem handle_request_spec {rsp : HttpResponse} (h : (handle_request cfg req).Runs ok path rsp) :
    path.filter isCall = [] ∨
      ∃ route a path' t₁ t₂ path₁ path₂ request reply, route ∈ register_routes cfg ∧
        route.path = req.path ∧
        (jwt_authenticate (req.header "Authorization")
          (decide (route.auth = .WHITELISTED))).Runs (fun o ↦ ok (auth o)) path' (.ok a) ∧
        (resolve_trace_id req).Runs ok path₁ t₁ ∧ (resolve_trace_id req).Runs ok path₂ t₂ ∧
        rsp.trace_id = some t₁ ∧
        path.filterMap drawn = path₁.filterMap drawn ++ path₂.filterMap drawn ∧
        path.filter isCall = [⟨.call route.service_name route.method route.timeout_ms
          (RpcMetadata.codec.serialize (metadata t₂ a)) request, reply⟩] := by
  rw [handle_request] at h
  split at h
  · obtain ⟨-, path', rfl, -, h⟩ := runs_op_bind.1 h
    obtain ⟨rfl, -⟩ := runs_ret.1 h
    exact .inl rfl
  · next route hroute =>
    obtain ⟨served, rsp', tail, rfl, hserve, h⟩ := runs_bind.1 h
    obtain ⟨-, path', rfl, -, h⟩ := runs_op_bind.1 h
    obtain ⟨rfl, rfl⟩ := runs_ret.1 h
    obtain ⟨checked, result, path₀, rfl, hauth, hserve⟩ := runs_bind.1 hserve
    obtain ⟨hcalls₀, hdrawn₀, path', hjwt⟩ := authenticate_spec hauth
    cases result with
    | error e =>
      obtain ⟨rfl, -⟩ := runs_ret.1 hserve
      refine .inl ?_
      rw [List.append_nil, List.filter_append, hcalls₀]
      rfl
    | ok a =>
      obtain ⟨path₁, t₁, path₂, rfl, htrace₁, hserve⟩ := runs_bind.1 hserve
      obtain ⟨-, path₃, rfl, -, hserve⟩ := runs_op_bind.1 hserve
      obtain ⟨path₄, rsp'', path₅, rfl, hforward, hret⟩ := runs_bind.1 hserve
      obtain ⟨rfl, rfl⟩ := runs_ret.1 hret
      obtain ⟨hcalls₁, -⟩ := resolve_trace_id_spec htrace₁
      rcases forward_spec hforward with hnone | ⟨t₂, path₂, request, reply, htrace₂, hdrawn, hcall⟩
      · refine .inl ?_
        simp [List.filter_append, hcalls₀, hcalls₁, hnone, isCall]
      · refine .inr ⟨route, a, path', t₁, t₂, path₁, path₂, request, reply,
          List.mem_of_find?_eq_some hroute, ?_, hjwt, htrace₁, htrace₂, rfl, ?_, ?_⟩
        · have hpath := List.find?_some hroute
          exact (of_decide_eq_true hpath).symm
        · simp [List.filterMap_append, List.filterMap_cons, hdrawn₀, hdrawn, drawn]
        · simp [List.filter_append, hcalls₀, hcalls₁, hcall, isCall]

end Paths

/-! ### For whom the handlers run -/

/-- What the operations can be answered between two moments of a run of the identity service: the
services answer as they like. -/
def GatewayGiven (jwt : JwtConfig) (lib : JwtLib) (p₁ p₂ : AuthPool) :
    (o : GatewayOp) → o.Res → Prop
  | auth o, r => Given jwt lib p₁ p₂ o r
  | _, _ => True

/-- The handlers behind a call, with its attachment, run for whoever has shown a token, or for
nobody: there are four methods for which no token is asked. -/
def RunsFor (jwt : JwtConfig) (lib : JwtLib) (p₁ p₂ : AuthPool) (req : HttpRequest)
    (r : GatewayRoute) (attachment : List UInt8) : Prop :=
  match r.auth with
  | .WHITELISTED => r.method ∈ ["Register", "Login", "SendVerifyCode", "RefreshToken"] ∧
      ∀ calls, extract_auth (forwarded attachment calls) = .error auth_missing
  | .JWT_REQUIRED => ∃ token c trace_id, req.header "Authorization" = some (kPrefix ++ token) ∧
      (∃ p, Between jwt lib p₁ p₂ p ∧ p.shared.Admits ⟨c.sub, c.did, c.jti⟩ ∧
        JwtCodec.verify jwt lib p.shared.now p.shared.now token false = .ok c ∧
        p.shared.now < c.exp_sec) ∧
      (∃ p, Between jwt lib p₁ p₂ p ∧ p.shared.revoked.get p.shared.now c.jti = none) ∧
      ∀ calls, extract_auth (forwarded attachment calls) = .ok ⟨⟨c.sub, c.did, c.jti⟩, trace_id⟩

section Identity

variable {jwt : JwtConfig} {lib : JwtLib} {p₁ p₂ : AuthPool}

/-- Metadata without a user. -/
theorem extract_auth_whitelisted (trace_id : String) (calls : List (List UInt8)) :
    extract_auth (forwarded (RpcMetadata.codec.serialize (metadata trace_id {})) calls) =
      .error auth_missing := by
  rw [extract_auth_serialize]
  rfl

/-- What is known of a token that the codec has accepted. -/
theorem of_given_verify {s₀ : AuthState} (hs : s₀.Fresh)
    (h₁ : (identityService jwt lib).Reach redisAnswers ⟨[], s₀⟩ p₁) {token : String}
    {c : TokenClaims} (h : Given jwt lib p₁ p₂ (.verify token false) (.ok c)) :
    c.Signed jwt p₂.shared.now ∧ ∃ p, Between jwt lib p₁ p₂ p ∧
      p.shared.Admits ⟨c.sub, c.did, c.jti⟩ ∧
      JwtCodec.verify jwt lib p.shared.now p.shared.now token false = .ok c ∧
      p.shared.now < c.exp_sec := by
  obtain ⟨p, i, ch, s', hp, -, hx⟩ := h
  simp only [AuthState.exec] at hx
  split at hx
  · cases (Prod.mk.inj (Option.some.inj hx)).1
  · next c' hverify =>
    split at hx
    · next hissued =>
      obtain rfl := Except.ok.inj (Prod.mk.inj (Option.some.inj hx)).1
      obtain ⟨-, -, -, -, -, -, hrefresh, hlt⟩ := JwtCodec.verify_ok hverify
      obtain ⟨ts, hinv, -⟩ := auth_invariant (I := fun _ _ ↦ True) (h₁.trans hp.1)
        (fun _ _ _ _ hop ↦ hop) (authInv_fresh hs) trivial .nil
        (fun _ _ _ _ _ _ ↦ trivial) fun _ _ _ _ _ ↦ trivial
      exact ⟨(hinv.signed _ _ hissued).later (now_le_of_reach hp.2), p, hp,
        ⟨_, hissued, hrefresh, rfl, rfl⟩, hverify, Int.cast_lt.1 hlt⟩
    · cases hx

/-- What is known of a token that is not on the blacklist. -/
theorem of_given_revoked {jti : String} {there : Reply Bool}
    (h : Given jwt lib p₁ p₂ (.getRevoked jti) there) (hthere : there ≠ .ok true) :
    ∃ p, Between jwt lib p₁ p₂ p ∧ p.shared.revoked.get p.shared.now jti = none := by
  obtain ⟨p, i, ch, s', hp, hfault, hx⟩ := h
  obtain ⟨rfl, -⟩ := Prod.mk.inj (Option.some.inj hx)
  refine ⟨p, hp, ?_⟩
  rw [ch.reply_of_answered hfault] at hthere
  cases hget : p.shared.revoked.get p.shared.now jti with
  | none => rfl
  | some u =>
    rw [hget] at hthere
    exact absurd rfl hthere

/-- What a call does to a service whose handlers stand in `HANDLE_RPC`: nothing without a user, and
else what the handler does for the user of the token. -/
theorem RunsFor.handler {req : HttpRequest} {r : GatewayRoute} {attachment : List UInt8}
    (h : RunsFor jwt lib p₁ p₂ req r attachment) {σ : Type} (calls : List (List UInt8))
    (request_id : String) (body : TracedContext → σ → Except RpcThrown Unit × σ) (s : σ) :
    r.auth = .WHITELISTED ∧ HANDLE_RPC (forwarded attachment calls) request_id body s =
        (failed_header request_id auth_missing, s) ∨
      ∃ auth p, Between jwt lib p₁ p₂ p ∧ p.shared.Admits auth.toAuthContext ∧
        ((HANDLE_RPC (forwarded attachment calls) request_id body s).1.success = true ↔
          ∃ s', body auth s = (.ok (), s')) := by
  rw [RunsFor] at h
  cases hauth : r.auth with
  | WHITELISTED =>
    rw [hauth] at h
    exact .inl ⟨rfl, HANDLE_RPC_of_error (h.2 calls)⟩
  | JWT_REQUIRED =>
    rw [hauth] at h
    obtain ⟨token, c, trace_id, -, ⟨p, hp, hadmits, -⟩, -, hextract⟩ := h
    refine .inr ⟨⟨⟨c.sub, c.did, c.jti⟩, trace_id⟩, p, hp, hadmits, ?_⟩
    rw [HANDLE_RPC_success_iff, hextract calls]
    constructor
    · rintro ⟨auth, s', hok, hbody⟩
      obtain rfl := Except.ok.inj hok
      exact ⟨s', hbody⟩
    · rintro ⟨s', hbody⟩
      exact ⟨_, s', rfl, hbody⟩

/-- **For whom a handler runs.** A request makes one call at most, of the method of the route with
its path. The handlers behind that call, however many calls lie between, run for nobody when the
route is on the whitelist; else for the user and the device of an access token that the request has
shown, that the identity service has issued, that was valid at a moment of the request, and that was
not on the blacklist at one. -/
theorem forwarded_identity (cfg : GatewayConfig) (s₀ : AuthState) (hs : s₀.Fresh)
    (h₁ : (identityService jwt lib).Reach redisAnswers ⟨[], s₀⟩ p₁) (req : HttpRequest)
    (path : List GatewayCall) (rsp : HttpResponse)
    (h : (handle_request cfg req).Runs (GatewayGiven jwt lib p₁ p₂) path rsp) :
    path.countP isCall ≤ 1 ∧
      ∀ service_name method timeout_ms attachment request reply,
        (⟨.call service_name method timeout_ms attachment request, reply⟩ : GatewayCall) ∈ path →
        ∃ r ∈ register_routes cfg, r.path = req.path ∧ r.service_name = service_name ∧
          r.method = method ∧ r.timeout_ms = timeout_ms ∧
          RunsFor jwt lib p₁ p₂ req r attachment := by
  rw [List.countP_eq_length_filter]
  rcases handle_request_spec h with hnone | ⟨r, a, path', t₁, t, path₁, path₂, request, reply, hr,
    hpath, hauth, -, -, -, -, hcall⟩
  · rw [hnone]
    refine ⟨Nat.zero_le _, ?_⟩
    intro service_name method timeout_ms attachment request reply hmem
    exact absurd rfl (List.filter_eq_nil_iff.1 hnone _ hmem)
  · rw [hcall]
    refine ⟨le_rfl, ?_⟩
    intro service_name method timeout_ms attachment request' reply' hmem
    have hone : (⟨.call service_name method timeout_ms attachment request', reply'⟩ : GatewayCall) ∈
        path.filter isCall := List.mem_filter.2 ⟨hmem, rfl⟩
    rw [hcall] at hone
    obtain ⟨rfl, rfl, rfl, rfl, rfl⟩ := GatewayOp.call.inj
      (congrArg Sigma.fst (List.mem_singleton.1 hone))
    refine ⟨r, hr, hpath, rfl, rfl, rfl, ?_⟩
    rcases jwt_authenticate_ok hauth with ⟨hwhite, rfl⟩ | ⟨hjwt, token, c, htoken, hverify, rfl,
      hcheck⟩
    · have hr := method_of_whitelisted hr (of_decide_eq_true hwhite)
      rw [RunsFor, of_decide_eq_true hwhite]
      exact ⟨hr, extract_auth_whitelisted t⟩
    · obtain ⟨hsigned, hvalid⟩ := of_given_verify hs h₁ hverify
      obtain ⟨hsub, hdid, hjti⟩ := hsigned.named
      obtain ⟨there, hgiven, hthere⟩ := hcheck hjti
      have hrequired : r.auth = .JWT_REQUIRED := by
        cases hra : r.auth with
        | WHITELISTED => exact absurd hra (of_decide_eq_false hjwt)
        | JWT_REQUIRED => rfl
      rw [RunsFor, hrequired]
      refine ⟨token, c, t, htoken, hvalid, of_given_revoked hgiven hthere, fun calls ↦ ?_⟩
      rw [extract_auth_serialize, if_neg]
      · rfl
      · rintro (h | h)
        · exact hsub h
        · exact hdid h

end Identity

/-- A gateway whose services take any body. -/
def anyBody : GatewayConfig where
  identity_svc := "identity"
  relationship_svc := "relationship"
  conversation_svc := "conversation"
  message_svc := "message"
  transmite_svc := "transmite"
  media_svc := "media"
  presence_svc := "presence"
  parse _ body := some body

/-- Alice asks for her conversations, with her access token. -/
def aliceLists : HttpRequest where
  path := "/service/conversation/list"
  headers := [("authorization", kPrefix ++ phoneToken 0),
    ("x-trace-id", "0123456789abcdef0123456789abcdef")]
  body := []

/-- The metadata of the call. -/
def aliceMetadata : List UInt8 :=
  RpcMetadata.codec.serialize (metadata "0123456789abcdef0123456789abcdef" (auth_info aliceAccess))

/-- Her token is looked at. -/
def aliceChecked : List (Σ o : AuthOp, o.Res) :=
  [⟨.verify (phoneToken 0) false, Except.ok aliceAccess⟩,
    ⟨.getRevoked aliceAccess.jti, Reply.ok false⟩]

/-- Her request is answered by the conversation service. -/
def aliceListed : List GatewayCall :=
  aliceChecked.map (fun e ↦ ⟨.auth e.1, e.2⟩) ++
    [⟨.setLog "0123456789abcdef0123456789abcdef" "" "", ()⟩,
      ⟨.choose "conversation", true⟩,
      ⟨.setLog "0123456789abcdef0123456789abcdef" "" "", ()⟩,
      ⟨.setLog "0123456789abcdef0123456789abcdef" "alice" "phone", ()⟩,
      ⟨.call "conversation" "ListConversations" 3000 aliceMetadata [], RpcResult.ok []⟩,
      ⟨.clearLog, ()⟩]

/-- At her request. -/
theorem forwarded_identity_alice :
    ({} : AuthState).Fresh ∧ ∃ p₁ rsp,
      (identityService phoneConfig phoneLib).Reach redisAnswers ⟨[], {}⟩ p₁ ∧
      (handle_request anyBody aliceLists).Runs (GatewayGiven phoneConfig phoneLib p₁ p₁)
        aliceListed rsp ∧
      ∃ r ∈ register_routes anyBody, r.path = aliceLists.path ∧ r.service_name = "conversation" ∧
        r.method = "ListConversations" ∧ r.timeout_ms = 3000 ∧
        RunsFor phoneConfig phoneLib p₁ p₁ aliceLists r aliceMetadata := by
  have hfresh : ({} : AuthState).Fresh := ⟨rfl, rfl, rfl, rfl, rfl, rfl, rfl, rfl, rfl⟩
  obtain ⟨p₁, hp₁, hnow, hissued, hlisted⟩ := Machine.exists_of_run
    (identityService phoneConfig phoneLib) redisAnswers ⟨[], {}⟩ aliceLogsIn
    (fun p ↦ p.shared.now = 0 ∧ p.shared.tokens.find aliceAccess.jti = some aliceAccess ∧
      p.shared.revoked.get p.shared.now aliceAccess.jti = none) (by decide +kernel)
  have hbetween : Between phoneConfig phoneLib p₁ p₁ p₁ := ⟨.refl, .refl⟩
  have hverify := given_ok hbetween (aliceAccess_valid hnow hbetween) hissued
  have hfree : Given phoneConfig phoneLib p₁ p₁ (.getRevoked aliceAccess.jti) (.ok false) := by
    refine ⟨p₁, 0, {}, { p₁.shared with unmarked := (0, p₁.shared.now) :: p₁.shared.unmarked },
      hbetween, rfl, ?_⟩
    simp only [AuthState.exec, hlisted]
    rfl
  have hbearer : bearer_token (kPrefix ++ phoneToken 0) = some (phoneToken 0) :=
    bearer_token_append (by decide +kernel)
  have hauthenticate : (jwt_authenticate (aliceLists.header "Authorization") false).Runs
      (Given phoneConfig phoneLib p₁ p₁) aliceChecked (.ok (auth_info aliceAccess)) := by
    rw [show aliceLists.header "Authorization" = some (kPrefix ++ phoneToken 0) by
      decide +kernel]
    simp only [jwt_authenticate, hbearer]
    exact .call hverify (.call hfree (.ret _))
  have hruns : (handle_request anyBody aliceLists).Runs (GatewayGiven phoneConfig phoneLib p₁ p₁)
      aliceListed
      { trace_id := some "0123456789abcdef0123456789abcdef", body := .message [] } := by
    obtain ⟨r, hr, hservice, hmethod, htimeout, hjwt⟩ : ∃ r,
        ((register_routes anyBody).find? fun r ↦ aliceLists.path = r.path) = some r ∧
        r.service_name = "conversation" ∧
        r.method = "ListConversations" ∧ r.timeout_ms = 3000 ∧
        decide (r.auth = .WHITELISTED) = false := ⟨_, by rfl, rfl, rfl, rfl, rfl⟩
    have htrace : resolve_trace_id aliceLists = .ret "0123456789abcdef0123456789abcdef" := by
      rw [resolve_trace_id, show (aliceLists.header "X-Trace-Id").filter (is_valid_trace_id ·) =
        some "0123456789abcdef0123456789abcdef" by decide +kernel]
      rfl
    rw [handle_request, hr]
    refine runs_bind.2 ⟨aliceListed.dropLast, _, [⟨.clearLog, ()⟩], rfl, ?_, .call trivial (.ret _)⟩
    refine runs_bind.2 ⟨_, .ok (auth_info aliceAccess), aliceListed.dropLast.drop 2, rfl,
      runs_lift.2 ⟨aliceChecked, rfl, ?_⟩, ?_⟩
    · rw [hjwt]
      exact hauthenticate
    rw [htrace]
    refine runs_op_bind.2 ⟨(), aliceListed.dropLast.drop 3, rfl, trivial, ?_⟩
    refine runs_bind.2 ⟨aliceListed.dropLast.drop 3, { body := .message [] }, [], rfl, ?_, .ret _⟩
    rw [forward, hservice, hmethod, htimeout, htrace]
    exact .call trivial (.call trivial (.call trivial (.call trivial (.ret _))))
  have hcall := (forwarded_identity anyBody {} hfresh hp₁ aliceLists aliceListed _ hruns).2
    "conversation" "ListConversations" 3000 aliceMetadata [] (.ok []) (by simp [aliceListed])
  exact ⟨hfresh, p₁, _, hp₁, hruns, hcall⟩

/-! ### The trace id -/

/-- **Whether a client is shown the trace id that the services log.** The trace id of a call is
valid; the response has the same one exactly when the request has brought a valid one, or the same
numbers have been drawn twice. -/
theorem trace_id_shown_iff (cfg : GatewayConfig) (ok : (o : GatewayOp) → o.Res → Prop)
    (req : HttpRequest) (path : List GatewayCall) (rsp : HttpResponse)
    (h : (handle_request cfg req).Runs ok path rsp) {service_name method : String} {timeout_ms : ℕ}
    {attachment request : List UInt8} {reply : RpcResult}
    (hmem :
      (⟨.call service_name method timeout_ms attachment request, reply⟩ : GatewayCall) ∈ path) :
    ∃ m, RpcMetadata.codec.parse attachment = some m ∧ is_valid_trace_id m.trace_id = true ∧
      (rsp.trace_id = some m.trace_id ↔
        (∃ t, req.header "X-Trace-Id" = some t ∧ is_valid_trace_id t = true) ∨
          ∃ d, path.filterMap drawn = [d, d]) := by
  rcases handle_request_spec h with hnone | ⟨r, a, path', t₁, t₂, path₁, path₂, request', reply', -,
    -, -, htrace₁, htrace₂, hrsp, hdrawn, hcall⟩
  · exact absurd rfl (List.filter_eq_nil_iff.1 hnone _ hmem)
  · have hone : (⟨.call service_name method timeout_ms attachment request, reply⟩ : GatewayCall) ∈
        path.filter isCall := List.mem_filter.2 ⟨hmem, rfl⟩
    rw [hcall] at hone
    obtain ⟨-, -, -, rfl, -⟩ := GatewayOp.call.inj
      (congrArg Sigma.fst (List.mem_singleton.1 hone))
    refine ⟨metadata t₂ a, RpcMetadata.codec.parse_serialize _, ?_⟩
    have hshown : rsp.trace_id = some (metadata t₂ a).trace_id ↔ t₁ = t₂ := by
      rw [hrsp]
      exact Option.some_inj
    obtain ⟨-, ⟨hheader₁, hdrawn₁⟩ | ⟨hheader₁, d₁, hdrawn₁, rfl⟩⟩ := resolve_trace_id_spec htrace₁
    · obtain ⟨-, ⟨hheader₂, -⟩ | ⟨hheader₂, -⟩⟩ := resolve_trace_id_spec htrace₂
      · obtain rfl := Option.some.inj (hheader₁.symm.trans hheader₂)
        obtain ⟨hheader, hvalid⟩ := Option.filter_eq_some_iff.1 hheader₁
        exact ⟨hvalid, iff_of_true (hshown.2 rfl) (.inl ⟨t₁, hheader, hvalid⟩)⟩
      · cases hheader₁.symm.trans hheader₂
    · obtain ⟨-, ⟨hheader₂, -⟩ | ⟨-, d₂, hdrawn₂, rfl⟩⟩ := resolve_trace_id_spec htrace₂
      · cases hheader₁.symm.trans hheader₂
      · have hinvalid : ¬ ∃ t, req.header "X-Trace-Id" = some t ∧ is_valid_trace_id t = true := by
          rintro ⟨t, ht, hvalid⟩
          rw [ht, Option.filter_some, if_pos hvalid] at hheader₁
          cases hheader₁
        refine ⟨is_valid_gen_trace_id _ _, ?_⟩
        rw [hshown, or_iff_right hinvalid, hdrawn, hdrawn₁, hdrawn₂]
        constructor
        · intro heq
          obtain ⟨hhi, hlo⟩ := gen_trace_id_inj heq
          exact ⟨d₁, by rw [Prod.ext hhi hlo]; rfl⟩
        · rintro ⟨d, hd⟩
          obtain ⟨rfl, hd⟩ := List.cons.inj hd
          rw [(List.cons.inj hd).1]

/-- Somebody registers, without a trace id. -/
def registers : HttpRequest where
  path := "/service/identity/register"
  headers := []
  body := []

/-- The calls that are made when the draws differ. -/
def registered : List GatewayCall :=
  [⟨.random, (1, 2)⟩, ⟨.setLog (gen_trace_id 1 2) "" "", ()⟩, ⟨.choose "identity", true⟩,
    ⟨.random, (3, 4)⟩, ⟨.setLog (gen_trace_id 3 4) "" "", ()⟩,
    ⟨.setLog (gen_trace_id 3 4) "" "", ()⟩,
    ⟨.call "identity" "Register" 3000
      (RpcMetadata.codec.serialize (metadata (gen_trace_id 3 4) {})) [], RpcResult.ok []⟩,
    ⟨.clearLog, ()⟩]

/-- She is not shown the trace id of the call. -/
theorem trace_id_shown_iff_registered :
    ∃ rsp, (handle_request anyBody registers).Runs (fun _ _ ↦ True) registered rsp ∧
      ∃ m, RpcMetadata.codec.parse
          (RpcMetadata.codec.serialize (metadata (gen_trace_id 3 4) {})) = some m ∧
        is_valid_trace_id m.trace_id = true ∧ rsp.trace_id ≠ some m.trace_id := by
  have hruns : (handle_request anyBody registers).Runs (fun _ _ ↦ True) registered
      { trace_id := some (gen_trace_id 1 2), body := .message [] } := by
    obtain ⟨r, hr, hservice, hmethod, htimeout, hwhite⟩ : ∃ r,
        ((register_routes anyBody).find? fun r ↦ registers.path = r.path) = some r ∧
        r.service_name = "identity" ∧
        r.method = "Register" ∧ r.timeout_ms = 3000 ∧
        decide (r.auth = .WHITELISTED) = true := ⟨_, by rfl, rfl, rfl, rfl, rfl⟩
    rw [handle_request, hr]
    refine runs_bind.2 ⟨registered.dropLast, _, [⟨.clearLog, ()⟩], rfl, ?_, .call trivial (.ret _)⟩
    refine runs_bind.2 ⟨[], .ok {}, registered.dropLast, rfl, runs_lift.2 ⟨[], rfl, ?_⟩, ?_⟩
    · rw [hwhite]
      exact .ret _
    have htrace : ∀ d : UInt64 × UInt64, (resolve_trace_id registers).Runs (fun _ _ ↦ True)
        [⟨.random, d⟩] (gen_trace_id d.1 d.2) := fun d ↦ .call trivial (.ret _)
    refine runs_bind.2 ⟨[⟨.random, (1, 2)⟩], _, registered.dropLast.drop 1, rfl, htrace _, ?_⟩
    refine runs_op_bind.2 ⟨(), registered.dropLast.drop 2, rfl, trivial, ?_⟩
    refine runs_bind.2 ⟨registered.dropLast.drop 2, { body := .message [] }, [], rfl, ?_, .ret _⟩
    rw [forward, hservice, hmethod, htimeout]
    refine runs_op_bind.2 ⟨true, registered.dropLast.drop 3, rfl, trivial, ?_⟩
    refine runs_bind.2 ⟨[⟨.random, (3, 4)⟩], _, registered.dropLast.drop 4, rfl, htrace _, ?_⟩
    exact .call trivial (.call trivial (.call trivial (.ret _)))
  have hmem : (⟨.call "identity" "Register" 3000 (RpcMetadata.codec.serialize
      (metadata (gen_trace_id 3 4) {})) [], RpcResult.ok []⟩ : GatewayCall) ∈ registered :=
    @List.mem_of_getElem? _ _ 6 _ rfl
  obtain ⟨m, hm, hvalid, hshown⟩ := trace_id_shown_iff anyBody _ registers registered _ hruns hmem
  refine ⟨_, hruns, m, hm, hvalid, ?_⟩
  rw [Ne, hshown]
  rintro (⟨t, ht, -⟩ | ⟨d, hd⟩)
  · cases ht
  · have hdrawn : [((1, 2) : UInt64 × UInt64), (3, 4)] = [d, d] := hd
    obtain ⟨rfl, hrest⟩ := List.cons.inj hdrawn
    exact absurd (List.cons.inj hrest).1 (by decide)

end Gateway

end ChatNow
