import ChatNow.Lib.Prog
import ChatNow.Pipeline.Signature
import ChatNow.Proto.Codec
import Mathlib.Data.List.AList

/-!
# onPushMessage

`PushServiceImpl::onPushMessage` of `push/source/push_server.h`, the consumer of the push exchange,
with `resolve_route`. It runs in three passes over the members of a message:

1. every member's route is resolved, the devices on this instance are served, and a member for whom
   nothing local was delivered goes to `remote_uids`;
2. the routes of `remote_uids` are resolved again and grouped by peer instance;
3. every peer gets one `PushBatch`, and the delivery is acked only if all of them succeed.

What leaves the process is an operation of `PushOp`, and so is the choice of a channel: the manager
is shared with the other threads, and a channel is named by its host. The lock of the in-flight
registry in `resolve_route` has no effect on one call and is left out; the double check under it is
kept.
A hash table is an association list, a set a list without repetition.
-/

namespace ChatNow

open Prog

/-- `RouteEntry`. -/
structure RouteEntry where
  device_ids : List String := []
  device_to_instance : AList fun _ : String ↦ String := ∅

/-- The instance that a device is bound to, empty when there is none. -/
def RouteEntry.instance_of (route : RouteEntry) (did : String) : String :=
  (route.device_to_instance.lookup did).getD ""

/-- The operations of the push service's consumer. -/
inductive PushOp
  /-- A read of the local route cache. -/
  | routeCacheGet (uid : String)
  /-- `OnlineRoute::device_instances_map_strict`: `HGETALL` of the user's route. -/
  | deviceInstancesMap (uid : String)
  /-- A write to the local route cache. -/
  | routeCacheSet (uid : String) (route : RouteEntry)
  /-- `persist_unacked_`. -/
  | persistUnacked (uid did : String) (user_seq : UInt64) (payload : NotifyMessage)
  /-- `_local_send`; the number of sockets that took the payload. -/
  | localSend (uid did : String) (payload : NotifyMessage)
  /-- `_mm_channels->choose`: the host to which the channel leads, if there is one. -/
  | choose (peer : String)
  /-- The `PushBatch` call at a host; whether neither the call nor the one called failed. -/
  | pushBatch (host : String) (req : PushBatchReq)

/-- What each operation answers. -/
@[reducible]
def PushOp.Res : PushOp → Type
  | routeCacheGet _ => Option RouteEntry
  | deviceInstancesMap _ => Reply (AList fun _ : String ↦ String)
  | routeCacheSet _ _ => Unit
  | persistUnacked _ _ _ _ => Reply Unit
  | localSend _ _ _ => ℕ
  | choose _ => Option String
  | pushBatch _ _ => Bool

/-- Programs of the push service. -/
abbrev PushM := Prog PushOp PushOp.Res

open PushOp

/-- What the push service was built with. -/
structure PushConfig where
  /-- `_instance_id`. -/
  instance_id : String
  /-- `_online_route` is set. -/
  online_route : Bool := true
  /-- `_local_route_cache` is set. -/
  local_route_cache : Bool := true

namespace OnPushMessage

/-- A look at the local route cache, if there is one. -/
def cached_route (cfg : PushConfig) (uid : String) : PushM (Option RouteEntry) :=
  if cfg.local_route_cache then op (routeCacheGet uid) else return none

/-- The route that the devices of a user make. -/
def route_of (dmap : AList fun _ : String ↦ String) : RouteEntry :=
  { device_ids := dmap.keys, device_to_instance := dmap }

/-- The slow path of `resolve_route`. -/
def load_route (cfg : PushConfig) (uid : String) : PushM (Reply RouteEntry) := do
  match ← op (deviceInstancesMap uid) with
  | .thrown => return .thrown
  | .ok dmap =>
    if cfg.local_route_cache then op (routeCacheSet uid (route_of dmap))
    return .ok (route_of dmap)

/-- `resolve_route`. -/
def resolve_route (cfg : PushConfig) (uid : String) : PushM (Reply RouteEntry) := do
  if !cfg.online_route then return .ok {}
  match ← cached_route cfg uid with
  | some cached => return .ok cached
  | none =>
    match ← cached_route cfg uid with
    | some cached => return .ok cached
    | none => load_route cfg uid

/-- `uid2seq.find(uid)`: a later pair overwrites an earlier one. -/
def find_seq (pairs : List UserSeqPair) (uid : String) : Option UInt64 :=
  (pairs.reverse.find? fun p ↦ p.user_id = uid).map (·.user_seq)

/-- `notify_template`. -/
def notify_template (msg_info : Message) (trace_id : String) : NotifyMessage :=
  { notify_type := .CHAT_MESSAGE_NOTIFY
    trace_id := if trace_id = "" then none else some trace_id
    remarks := some (.new_message_info { message_info := msg_info }) }

/-- The template with the user's own sequence number. -/
def per_user (msg_info : Message) (trace_id : String) (user_seq : UInt64) : NotifyMessage :=
  notify_template { msg_info with user_seq := user_seq } trace_id

/-- The loop over one member's devices: `none` to requeue, else whether anything went out
locally. -/
def device_loop (cfg : PushConfig) (msg_info : Message) (trace_id uid : String)
    (seq : Option UInt64) (route : RouteEntry) : List String → Bool → PushM (Option Bool)
  | [], any_local => return some any_local
  | did :: dids, any_local => do
    if route.instance_of did = cfg.instance_id then
      match seq with
      | some user_seq =>
        let user_payload := per_user msg_info trace_id user_seq
        match ← op (persistUnacked uid did user_seq user_payload) with
        | .thrown => return none
        | .ok () =>
          let sent ← op (localSend uid did user_payload)
          device_loop cfg msg_info trace_id uid seq route dids (any_local || decide (0 < sent))
      | none =>
        -- a large group has no user sequences: whatever the send yields, it counts
        let _ ← op (localSend uid did (notify_template msg_info trace_id))
        device_loop cfg msg_info trace_id uid seq route dids true
    else device_loop cfg msg_info trace_id uid seq route dids any_local

/-- Pass 1: serve the local devices and collect `remote_uids`; `none` to requeue. -/
def member_loop (cfg : PushConfig) (internal_msg : InternalMessage) (trace_id : String) :
    List String → List String → PushM (Option (List String))
  | [], remote_uids => return some remote_uids
  | uid :: uids, remote_uids => do
    match ← resolve_route cfg uid with
    | .thrown => return none
    | .ok route =>
      if route.device_ids.isEmpty then
        member_loop cfg internal_msg trace_id uids (remote_uids ++ [uid])
      else
        match ← device_loop cfg internal_msg.message trace_id uid
            (find_seq internal_msg.user_seqs uid) route route.device_ids false with
        | none => return none
        | some any_local =>
          member_loop cfg internal_msg trace_id uids
            (if any_local then remote_uids else remote_uids ++ [uid])

/-- The members that each peer has to serve. -/
abbrev PeerMap := AList fun _ : String ↦ List String

/-- `peer_to_uids[peer].insert(uid)`. -/
def add_peer (m : PeerMap) (peer uid : String) : PeerMap :=
  m.insert peer (((m.lookup peer).getD []).insert uid)

/-- The peers of one member: devices without an instance and devices of this one are passed over. -/
def group_devices (cfg : PushConfig) (uid : String) (route : RouteEntry) (m : PeerMap) : PeerMap :=
  route.device_ids.foldl (fun m did ↦
    let peer := route.instance_of did
    if peer = "" ∨ peer = cfg.instance_id then m else add_peer m peer uid) m

/-- Pass 2: group the remote members by peer; `none` to requeue. -/
def group_loop (cfg : PushConfig) : List String → PeerMap → PushM (Option PeerMap)
  | [], m => return some m
  | uid :: uids, m => do
    match ← resolve_route cfg uid with
    | .thrown => return none
    | .ok route => group_loop cfg uids (group_devices cfg uid route m)

/-- The request for one peer. -/
def batch_request (internal_msg : InternalMessage) (trace_id : String) (uids : List String) :
    PushBatchReq :=
  { request_id := internal_msg.message.client_msg_id
    user_id_list := uids
    notify := notify_template internal_msg.message trace_id
    user_seqs := uids.filterMap fun u ↦ (find_seq internal_msg.user_seqs u).map fun s ↦ ⟨u, s⟩ }

/-- Pass 3: one `PushBatch` for each peer, over the channel that is handed out for it. -/
def batch_loop (internal_msg : InternalMessage) (trace_id : String) :
    List (Σ _ : String, List String) → PushM ConsumeAction
  | [] => return .Ack
  | ⟨peer, uids⟩ :: rest => do
    match ← op (choose peer) with
    | none => return .NackRequeue
    | some channel =>
      if !(← op (pushBatch channel (batch_request internal_msg trace_id uids))) then
        return .NackRequeue
      batch_loop internal_msg trace_id rest

/-- `onPushMessage`, once the body has been parsed. -/
def fan_out (cfg : PushConfig) (trace_id : String) (internal_msg : InternalMessage) :
    PushM ConsumeAction := do
  match ← member_loop cfg internal_msg trace_id internal_msg.member_id_list [] with
  | none => return .NackRequeue
  | some remote_uids =>
    if remote_uids.isEmpty then return .Ack
    match ← group_loop cfg remote_uids ∅ with
    | none => return .NackRequeue
    | some peer_to_uids => batch_loop internal_msg trace_id peer_to_uids.entries

end OnPushMessage

open OnPushMessage

/-- `onPushMessage`; `trace_id` is that of the log context. -/
def onPushMessage (cfg : PushConfig) (trace_id : String) (body : List UInt8) :
    PushM ConsumeAction :=
  match InternalMessage.codec.parse body with
  | none => return .NackDiscard
  | some internal_msg => fan_out cfg trace_id internal_msg

end ChatNow
