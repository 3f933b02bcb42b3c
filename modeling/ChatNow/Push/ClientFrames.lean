import ChatNow.Common.JwtCodec
import ChatNow.Common.ReliabilityState
import ChatNow.Lib.Exec
import ChatNow.Push.Connection
import ChatNow.Push.OnPushMessage
import ChatNow.Proto.Notify

/-!
# Frames from a client

What a push instance does with a frame that a client sends over its socket: the message handler of
`make_ws_object` in `push/source/push_server.h`, and `onClientNotify` with the handlers under it.

The first frame of a socket has to authenticate it; from then on the socket has a user and a device.
The other frames name a user too, in the message itself: an acknowledgement names the user and the
device whose entry it takes out of the ledger, a heartbeat names the user to whom the instance shall
send again what is due.

A frame is any `NotifyMessage` that can be parsed, so that its type and its content need not go
together; what is read of a content that is not there is the default. The lock in `resolve_route`
has no effect on one frame and is left out.
-/

namespace ChatNow

open Prog

/-! ### Frames -/

/-- `NotifyClientAuth`. -/
structure NotifyClientAuth where
  access_token : String := ""
  device_id : String := ""
  last_user_seq : Option ℕ := none
  deriving DecidableEq

/-- `NotifyMsgPushAck`. -/
structure NotifyMsgPushAck where
  user_id : String := ""
  device_id : String := ""
  message_id : ℤ := 0
  user_seq : ℕ := 0
  conversation_id : String := ""
  seq_id : ℕ := 0
  deriving DecidableEq

/-- `NotifyHeartbeat`. -/
structure NotifyHeartbeat where
  user_id : String := ""
  last_user_seq : ℕ := 0
  deriving DecidableEq

/-- The `notify_remarks` that the handlers read. -/
inductive ClientRemarks
  | msg_push_ack (ack : NotifyMsgPushAck)
  | heartbeat (hb : NotifyHeartbeat)
  | client_auth (auth : NotifyClientAuth)
  /-- One of those that the server sends. -/
  | other
  deriving DecidableEq

/-- A frame. -/
structure ClientNotify where
  notify_type : NotifyType := .FRIEND_ADD_APPLY_NOTIFY
  remarks : Option ClientRemarks := none
  deriving DecidableEq

namespace ClientNotify

variable (notify : ClientNotify)

def msg_push_ack : NotifyMsgPushAck :=
  match notify.remarks with
  | some (.msg_push_ack ack) => ack
  | _ => {}

def heartbeat : NotifyHeartbeat :=
  match notify.remarks with
  | some (.heartbeat hb) => hb
  | _ => {}

def client_auth : NotifyClientAuth :=
  match notify.remarks with
  | some (.client_auth auth) => auth
  | _ => {}

def has_client_auth : Bool :=
  match notify.remarks with
  | some (.client_auth _) => true
  | _ => false

end ClientNotify

/-- `is_valid_push_ack_ids`. -/
def is_valid_push_ack_ids (user_seq : ℕ) (message_id : ℤ) : Bool := 0 < user_seq && 0 < message_id

/-! ### The signature -/

/-- The operations of the handlers of a frame. -/
inductive FrameOp (κ : Type)
  /-- An operation of `resolve_route`. -/
  | routeOp (o : PushOp)
  /-- `Connection::client`. -/
  | client (conn : κ)
  /-- `Connection::touch`. -/
  | touchConn (conn : κ)
  /-- `Connection::insert`. -/
  | insertConn (conn : κ) (uid did jti : String)
  /-- The socket is closed. -/
  | close (conn : κ) (reason : String)
  /-- `JwtCodec::verify`, nothing when it throws. -/
  | verify (access_token : String)
  /-- `kAckLua`. -/
  | evalAck (uid did : String) (user_seq : ℕ)
  /-- `kPeekDueLua`, with the time subtracted. -/
  | evalPeekDue (uid did : String) (limit max_age_sec : ℤ)
  /-- `kBumpScoreLua`, with the time. -/
  | evalBumpScore (uid did : String) (user_seqs : List ℕ)
  /-- `_local_send`. -/
  | localSend (uid did payload : String)
  /-- The `UpdateReadAck` call, with the user that its metadata name. -/
  | updateReadAck (auth_user conversation_id : String) (seq_id : ℕ)
  /-- `OnlineRoute::bind`. -/
  | bindRoute (uid did instance_id : String)
  /-- `OnlineRoute::touch`. -/
  | touchRoute (uid : String)
  /-- `_write_presence_online_`. -/
  | writePresence (uid did state : String)
  /-- `_refresh_presence_ttl_`. -/
  | expirePresence (uid did : String)
  /-- `SMEMBERS` of those who want to know about a user. -/
  | presenceSubs (uid : String)
  /-- The `PushBatch` call of a change of presence. -/
  | presenceBatch (peer : String) (uids : List String) (uid state : String)

/-- What each operation answers. -/
@[reducible]
def FrameOp.Res {κ : Type} : FrameOp κ → Type
  | routeOp o => PushOp.Res o
  | client _ => Option Client
  | verify _ => Option JwtClaims
  | evalPeekDue _ _ _ _ => Reply (List (String × String))
  | presenceSubs _ => Reply (List String)
  | _ => Unit

/-- Programs of the handlers of a frame. -/
abbrev FrameM (κ : Type) := Prog (FrameOp κ) FrameOp.Res

open FrameOp

/-- What the push service was built with. -/
structure FrameConfig extends PushConfig where
  /-- `_unacked` is set. -/
  unacked : Bool := true
  resend_batch : ℤ := 50
  resend_max_age_sec : ℤ := 5
  /-- `_utils_base64_decode`. -/
  base64_decode : String → String
  /-- The payload of a `PRESENCE_CHANGE_NOTIFY`. -/
  presence_change : String → String → String

namespace Frames

variable {κ : Type} (cfg : FrameConfig)

/-- `resolve_route`. -/
def resolve_route (uid : String) : FrameM κ (Reply RouteEntry) :=
  (OnPushMessage.resolve_route cfg.toPushConfig uid).lift FrameOp.routeOp

/-- The pairs that `peek_due` makes of the answer of its script, up to the first that is none. -/
def read_pairs : List (String × String) → List (ℕ × String)
  | [] => []
  | (seq, payload) :: raw =>
    match stoull_text seq with
    | some user_seq => (user_seq, payload) :: read_pairs raw
    | none => []

/-- `UnackedPush::peek_due`. -/
def peek_due (uid did : String) : FrameM κ (List (ℕ × String)) := do
  if cfg.resend_batch ≤ 0 then return []
  match ← op (evalPeekDue uid did cfg.resend_batch cfg.resend_max_age_sec) with
  | .ok raw => return read_pairs raw
  | .thrown => return []

/-- The loop over what is due for one device. -/
def send_pending (uid did : String) : List (ℕ × String) → FrameM κ Unit
  | [] => return ()
  | (_, payload_b64) :: pending => do
    let payload := cfg.base64_decode payload_b64
    if payload ≠ "" then op (localSend uid did payload)
    send_pending uid did pending

/-- The loop over the devices of a route. -/
def resend_loop (uid : String) : List String → FrameM κ Unit
  | [] => return ()
  | did :: dids => do
    let pending ← peek_due cfg uid did
    if !pending.isEmpty then
      send_pending cfg uid did pending
      op (evalBumpScore uid did (pending.map (·.1)))
    resend_loop uid dids

/-- `_on_heartbeat_resend`; an exception of `resolve_route` leaves it. -/
def _on_heartbeat_resend (hb : NotifyHeartbeat) : FrameM κ (Reply Unit) := do
  if !cfg.unacked then return .ok ()
  let uid := hb.user_id
  if uid = "" then return .ok ()
  match ← resolve_route cfg uid with
  | .thrown => return .thrown
  | .ok route =>
    resend_loop cfg uid route.device_ids
    return .ok ()

/-- The devices of one who wants to know: those here are sent to, the others are left to a peer. -/
def notify_devices (sub_uid payload : String) (route : RouteEntry) :
    List String → OnPushMessage.PeerMap → FrameM κ OnPushMessage.PeerMap
  | [], peers => return peers
  | did :: dids, peers => do
    let inst := route.instance_of did
    if inst = "" ∨ inst = cfg.instance_id then
      op (localSend sub_uid did payload)
      notify_devices sub_uid payload route dids peers
    else notify_devices sub_uid payload route dids (OnPushMessage.add_peer peers inst sub_uid)

/-- The loop over those who want to know; nothing when an exception ends it. -/
def notify_subs (payload : String) :
    List String → OnPushMessage.PeerMap → FrameM κ (Option OnPushMessage.PeerMap)
  | [], peers => return some peers
  | sub_uid :: subs, peers => do
    match ← resolve_route cfg sub_uid with
    | .thrown => return none
    | .ok route =>
      let peers ← notify_devices cfg sub_uid payload route route.device_ids peers
      notify_subs payload subs peers

/-- The loop over the peers. -/
def notify_peers (uid state : String) : List (Σ _ : String, List String) → FrameM κ Unit
  | [] => return ()
  | ⟨peer, uids⟩ :: rest => do
    op (presenceBatch peer uids uid state)
    notify_peers uid state rest

/-- `_notify_presence_change_`. -/
def _notify_presence_change_ (uid state : String) : FrameM κ Unit := do
  match ← op (presenceSubs uid) with
  | .thrown => return ()
  | .ok subs =>
    match ← notify_subs cfg (cfg.presence_change uid state) subs ∅ with
    | none => return ()
    | some peers => notify_peers uid state peers.entries

/-- `_handle_client_auth_`. The frame it gives to `onClientNotify` at the end is a heartbeat, and
comes here to `_on_heartbeat_resend`. -/
def _handle_client_auth_ (auth : NotifyClientAuth) (conn : κ) : FrameM κ (Reply Unit) := do
  if auth.access_token = "" ∨ auth.device_id = "" then
    op (close conn "access_token/device_id required")
    return .ok ()
  match ← op (verify auth.access_token) with
  | none =>
    op (close conn "auth failed")
    return .ok ()
  | some claims =>
    op (insertConn conn claims.sub claims.did claims.jti)
    if cfg.online_route then op (bindRoute claims.sub claims.did cfg.instance_id)
    op (writePresence claims.sub claims.did "ONLINE")
    _notify_presence_change_ cfg claims.sub "ONLINE"
    match auth.last_user_seq with
    | some seq =>
      if 0 < seq then _on_heartbeat_resend cfg { user_id := claims.sub, last_user_seq := seq }
      else return .ok ()
    | none => return .ok ()

/-- The `MSG_PUSH_ACK` branch of `onClientNotify`. -/
def on_push_ack (ack : NotifyMsgPushAck) (conn : κ) : FrameM κ Unit := do
  if !is_valid_push_ack_ids ack.user_seq ack.message_id || ack.user_id = "" || ack.device_id = ""
    then return ()
  match ← op (client conn) with
  | none => return ()
  | some c =>
    if c.uid ≠ ack.user_id ∨ c.device_id ≠ ack.device_id then return ()
    if cfg.unacked then op (evalAck ack.user_id ack.device_id ack.user_seq)
    if 0 < ack.seq_id ∧ ack.conversation_id ≠ "" then
      op (updateReadAck c.uid ack.conversation_id ack.seq_id)

/-- `onClientNotify`. -/
def onClientNotify (notify : ClientNotify) (conn : κ) : FrameM κ (Reply Unit) := do
  if notify.notify_type = .CLIENT_AUTH then _handle_client_auth_ cfg notify.client_auth conn
  else if notify.notify_type = .MSG_PUSH_ACK then
    on_push_ack cfg notify.msg_push_ack conn
    return .ok ()
  else if notify.notify_type = .CLIENT_HEARTBEAT then _on_heartbeat_resend cfg notify.heartbeat
  else return .ok ()

/-- The rest of the message handler, for a socket with a user. -/
def on_known (c : Client) (notify : ClientNotify) (conn : κ) : FrameM κ Unit := do
  op (touchConn conn)
  match ← onClientNotify cfg notify conn with
  | .thrown => return ()
  | .ok () =>
    if notify.notify_type = .CLIENT_HEARTBEAT then
      op (touchRoute c.uid)
      op (expirePresence c.uid c.device_id)

/-- The message handler, once the frame has been parsed. -/
def on_message (notify : ClientNotify) (conn : κ) : FrameM κ Unit := do
  match ← op (client conn) with
  | none =>
    if notify.notify_type ≠ .CLIENT_AUTH ∨ notify.has_client_auth = false then
      op (close conn "auth required")
    else
      let _ ← onClientNotify cfg notify conn
  | some c => on_known cfg c notify conn

end Frames

end ChatNow
