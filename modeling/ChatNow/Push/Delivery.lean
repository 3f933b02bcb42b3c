import ChatNow.Common.CacheVersion
import ChatNow.Common.ErrorCodes
import ChatNow.Lib.Pool
import ChatNow.Push.OnPushMessage
import ChatNow.Push.UnackedPush

/-!
# Deliveries

`PushToUser` and `PushBatch` of `push/source/push_server.h`, and with `onPushMessage` the three ways
to send something to a client. What has a sequence number of the user is put into the ledger of the
device before it is sent. `PushToUser` does so for all devices before it sends anything, the others
device by device.

`sent_is_recorded`: what has been sent with a number, and is not acknowledged, is in the ledger.
-/

namespace ChatNow

open Prog OnPushMessage

/-! ### The text -/

/-- `PushToUserReq`. -/
structure PushToUserReq where
  request_id : String := ""
  user_id : String := ""
  notify : NotifyMessage := {}
  user_seq : Option UInt64 := none
  target_device_ids : List String := []
  deriving DecidableEq

/-- `PushToUserRsp` and `PushBatchRsp`: the header and the count. -/
structure PushRsp where
  header : ResponseHeader := {}
  online_count : ℕ := 0
  deriving DecidableEq

/-- The response to a call that could not look up a route, or could not record what is sent. -/
def unavailable_rsp (request_id : String) : PushRsp where
  header :=
    { request_id
      success := false
      error_code := error.kSystemUnavailable
      error_message := "unacked persistence unavailable" }

/-- The response to a call that has gone through. -/
def pushed_rsp (request_id : String) (count : ℕ) : PushRsp where
  header := { request_id, success := true, error_code := error.kOK }
  online_count := count

/-- What is sent to a user with a number: new messages tell it. -/
def numbered (notify : NotifyMessage) : Option UInt64 → NotifyMessage
  | none => notify
  | some user_seq =>
    match notify.remarks with
    | some (.new_message_info n) =>
      if notify.notify_type = .CHAT_MESSAGE_NOTIFY then
        { notify with remarks := some (.new_message_info { n with
            message_info := { n.message_info with user_seq := user_seq } }) }
      else notify
    | _ => notify

namespace PushService

open PushOp

/-- The payload is recorded for each device. -/
def persist_devices (uid : String) (user_seq : UInt64) (payload : NotifyMessage) :
    List String → PushM (Reply Unit)
  | [] => return .ok ()
  | did :: dids => do
    match ← op (persistUnacked uid did user_seq payload) with
    | .thrown => return .thrown
    | .ok () => persist_devices uid user_seq payload dids

/-- The payload is sent to each device; how many have taken it. -/
def send_devices (uid : String) (payload : NotifyMessage) : List String → ℕ → PushM ℕ
  | [], delivered => return delivered
  | did :: dids, delivered => do
    let sent ← op (localSend uid did payload)
    send_devices uid payload dids (if 0 < sent then delivered + 1 else delivered)

/-- What is recorded before anything is sent. -/
def persist_all (req : PushToUserReq) (payload : NotifyMessage) (dids : List String) :
    PushM (Reply Unit) :=
  match req.user_seq with
  | none => return .ok ()
  | some user_seq => persist_devices req.user_id user_seq payload dids

/-- `PushToUser`. -/
def PushToUser (cfg : PushConfig) (req : PushToUserReq) : PushM PushRsp := do
  let payload := numbered req.notify req.user_seq
  match ← resolve_route cfg req.user_id with
  | .thrown => return unavailable_rsp req.request_id
  | .ok route =>
    let dids := route.device_ids.filter fun did ↦
      req.target_device_ids = [] ∨ did ∈ req.target_device_ids
    match ← persist_all req payload dids with
    | .thrown => return unavailable_rsp req.request_id
    | .ok () =>
      let delivered ← send_devices req.user_id payload dids 0
      return pushed_rsp req.request_id delivered

/-- The devices of one user of a batch; the count so far, or an exception. -/
def batch_devices (uid : String) (seq : Option UInt64) (payload : NotifyMessage) :
    List String → ℕ → PushM (Reply ℕ)
  | [], total => return .ok total
  | did :: dids, total => do
    let recorded ← match seq with
      | none => pure (.ok ())
      | some user_seq => op (persistUnacked uid did user_seq payload)
    match recorded with
    | .thrown => return .thrown
    | .ok () =>
      let sent ← op (localSend uid did payload)
      batch_devices uid seq payload dids (if 0 < sent then total + 1 else total)

/-- The loop over the users of a batch. -/
def batch_users (cfg : PushConfig) (req : PushBatchReq) : List String → ℕ → PushM (Reply ℕ)
  | [], total => return .ok total
  | uid :: uids, total => do
    match ← resolve_route cfg uid with
    | .thrown => return .thrown
    | .ok route =>
      let seq := find_seq req.user_seqs uid
      match ← batch_devices uid seq (numbered req.notify seq) route.device_ids total with
      | .thrown => return .thrown
      | .ok total => batch_users cfg req uids total

/-- `PushBatch`. -/
def PushBatch (cfg : PushConfig) (req : PushBatchReq) : PushM PushRsp := do
  match ← batch_users cfg req req.user_id_list 0 with
  | .thrown => return unavailable_rsp req.request_id
  | .ok total => return pushed_rsp req.request_id total

end PushService

/-- What makes the push service send. -/
inductive DeliveryCall
  | to_user (req : PushToUserReq)
  | batch (req : PushBatchReq)
  /-- A message of the push exchange. -/
  | message (trace_id : String) (body : List UInt8)

namespace DeliveryCall

/-- What the call does. -/
def text (cfg : PushConfig) : DeliveryCall → PushM Unit
  | to_user req => do
    let _ ← PushService.PushToUser cfg req
    return ()
  | batch req => do
    let _ ← PushService.PushBatch cfg req
    return ()
  | message trace_id body => do
    let _ ← onPushMessage cfg trace_id body
    return ()

/-- The number that the call has for a user. -/
def seq : DeliveryCall → String → Option UInt64
  | to_user req, uid => if uid = req.user_id then req.user_seq else none
  | batch req, uid => find_seq req.user_seqs uid
  | message _ body, uid =>
    (InternalMessage.codec.parse body).bind fun internal_msg ↦ find_seq internal_msg.user_seqs uid

end DeliveryCall

/-! ### The machine -/

/-- Something with a number that is sent to a device. -/
structure Numbered where
  uid : String
  did : String
  user_seq : UInt64
  deriving DecidableEq

/-- The number as a member of the ledger. -/
def Numbered.member (x : Numbered) : String := toString x.user_seq.toNat

/-- The ledgers, and what has happened. No key expires. -/
structure DeliveryState where
  /-- By user and device. -/
  ledgers : String × String → Ledger ℤ := fun _ ↦ {}
  /-- The calls, by thread. -/
  calls : List DeliveryCall := []
  /-- What has been sent with a number. -/
  sent : List Numbered := []
  /-- What clients have acknowledged. -/
  acked : List Numbered := []

/-- What the environment decides at a call. -/
structure DeliveryChoice where
  /-- The call fails. -/
  fault : Bool := false
  /-- Its effect takes place all the same. -/
  late : Bool := false
  /-- The time, and the time to live of an entry. -/
  now : ℤ := 0
  ttl : ℤ := 300
  cached : Option RouteEntry := none
  devices : Reply (AList fun _ : String ↦ String) := .ok ∅
  /-- How many sockets take the payload. -/
  taken : ℕ := 1
  /-- The channel that is handed out. -/
  channel : Option String := none

namespace DeliveryState

/-- The ledger of what is sent. -/
def ledger (s : DeliveryState) (x : Numbered) : Ledger ℤ := s.ledgers (x.uid, x.did)

/-- The ledger is written. -/
def set (s : DeliveryState) (uid did : String) (L : Ledger ℤ) : DeliveryState :=
  { s with ledgers := Function.update s.ledgers (uid, did) L }

/-- Thread `i` sends to a device. -/
def send (s : DeliveryState) (i : ℕ) (uid did : String) : DeliveryState :=
  match (s.calls[i]?).bind fun c ↦ c.seq uid with
  | none => s
  | some user_seq => { s with sent := ⟨uid, did, user_seq⟩ :: s.sent }

variable (b64 : NotifyMessage → String) (expirable : ℤ → Bool)

/-- The effect of a call by thread `i`. -/
def exec (i : ℕ) : (o : PushOp) → DeliveryChoice → DeliveryState → Option (o.Res × DeliveryState)
  | .routeCacheGet _, c, s => some (c.cached, s)
  | .deviceInstancesMap _, c, s => some (if c.fault then .thrown else c.devices, s)
  | .routeCacheSet _ _, _, s => some ((), s)
  | .persistUnacked uid did user_seq payload, c, s =>
    let written := UnackedPush.push expirable (s.ledgers (uid, did)) (some c.now)
      (Numbered.member ⟨uid, did, user_seq⟩) (b64 payload) (some c.ttl)
    some (
      match c.fault, written.1 with
      | false, .ok _ => .ok ()
      | _, _ => .thrown,
      if c.fault && !c.late then s else s.set uid did written.2)
  | .localSend uid did _, c, s => some (c.taken, s.send i uid did)
  | .choose _, c, s => some (c.channel, s)
  | .pushBatch _ _, c, s => some (!c.fault, s)

end DeliveryState

/-- What can happen beside the calls. -/
inductive DeliveryEv
  /-- A call arrives at an instance. -/
  | arrive (cfg : PushConfig) (c : DeliveryCall)
  /-- A client acknowledges. -/
  | ack (x : Numbered)
  /-- A heartbeat looks at what is due. -/
  | peek (uid did : String) (H : HScan) (pttl : ℤ) (cutoff limit : Option ℤ)
  /-- It puts off what it has sent again. -/
  | bump (uid did : String) (ttl score : Option ℤ) (seqs : List String)
  /-- A thread is gone. -/
  | crash (i : ℕ)

abbrev DeliveryPool := Pool PushOp PushOp.Res DeliveryState

/-- The effect of an event. -/
def DeliveryState.env (expirable : ℤ → Bool) : DeliveryEv → DeliveryPool → Option DeliveryPool
  | .arrive cfg c, p => some ⟨p.threads ++ [c.text cfg],
      { p.shared with calls := p.shared.calls ++ [c] }⟩
  | .ack x, p => some ⟨p.threads,
      { p.shared.set x.uid x.did (UnackedPush.ack (p.shared.ledger x) x.member).2 with
        acked := x :: p.shared.acked }⟩
  | .peek uid did H pttl cutoff limit, p => some ⟨p.threads, p.shared.set uid did
      (UnackedPush.peek_due H pttl (p.shared.ledgers (uid, did)) cutoff limit).2⟩
  | .bump uid did ttl score seqs, p => some ⟨p.threads, p.shared.set uid did
      (UnackedPush.bump_score expirable (p.shared.ledgers (uid, did)) ttl score seqs).2⟩
  | .crash i, p => some ⟨p.threads.set i (.ret ()), p.shared⟩

/-- The push service, on any number of instances. -/
def delivery (b64 : NotifyMessage → String) (expirable : ℤ → Bool) :
    Machine PushOp PushOp.Res DeliveryState DeliveryChoice DeliveryEv :=
  ⟨DeliveryState.exec b64 expirable, DeliveryState.env expirable⟩

/-! ### The contract -/

/-- A call, and what it has recorded. -/
structure DeliveryThread where
  call : DeliveryCall
  recorded : List Numbered := []

/-- What has a number is recorded before it is sent. -/
def deliveryContract : Contract PushOp PushOp.Res DeliveryThread where
  allowed t o :=
    match o with
    | .localSend uid did _ => ∀ user_seq, t.call.seq uid = some user_seq →
        ⟨uid, did, user_seq⟩ ∈ t.recorded
    | _ => True
  admits _ _ _ := True
  next t o r :=
    match o, r with
    | .persistUnacked uid did user_seq _, .ok () =>
      { t with recorded := ⟨uid, did, user_seq⟩ :: t.recorded }
    | _, _ => t

/-- The operations by which routes are looked up and other instances are called. -/
def Looks : PushOp → Prop
  | .persistUnacked _ _ _ _ => False
  | .localSend _ _ _ => False
  | _ => True

theorem deliveryContract_ignores : deliveryContract.Ignores Looks where
  allowed t o ho := by
    cases o with
    | localSend uid did payload => exact ho.elim
    | _ => trivial
  next t o r ho := by
    cases o with
    | persistUnacked uid did user_seq payload => exact ho.elim
    | _ => rfl

section Looks

variable {τ : Type} {C : Contract PushOp PushOp.Res τ} {cfg : PushConfig} {t : τ} {uid : String}

theorem cached_route_looks (h : C.Ignores Looks) :
    (cached_route cfg uid).Meets C t fun t' _ ↦ t' = t := by
  rw [cached_route]
  split
  · exact meets_op_of_ignores h trivial fun _ ↦ rfl
  · rfl

theorem load_route_looks (h : C.Ignores Looks) :
    (load_route cfg uid).Meets C t fun t' _ ↦ t' = t := by
  refine meets_bind_of_ignores h trivial fun devices ↦ ?_
  cases devices with
  | thrown => rfl
  | ok dmap =>
    dsimp only
    split
    · exact meets_bind_of_ignores h trivial fun _ ↦ rfl
    · rfl

/-- Looking up a route changes nothing of what a contract keeps. -/
theorem resolve_route_looks (h : C.Ignores Looks) :
    (resolve_route cfg uid).Meets C t fun t' _ ↦ t' = t := by
  rw [resolve_route]
  split
  · rfl
  · refine (cached_route_looks h).bind fun t' cached ht ↦ ?_
    obtain rfl := ht
    cases cached with
    | some route => rfl
    | none =>
      refine (cached_route_looks h).bind fun t' cached ht ↦ ?_
      obtain rfl := ht
      cases cached with
      | some route => rfl
      | none => exact load_route_looks h

end Looks

section Meets

variable {cfg : PushConfig} {t : DeliveryThread} {uid : String}

namespace PushService

theorem persist_devices_meets (user_seq : UInt64) (payload : NotifyMessage) (dids : List String) :
    (persist_devices uid user_seq payload dids).Meets deliveryContract t fun t' r ↦
      t'.call = t.call ∧ t.recorded ⊆ t'.recorded ∧
        (r = .ok () → ∀ did ∈ dids, ⟨uid, did, user_seq⟩ ∈ t'.recorded) := by
  induction dids generalizing t with
  | nil => exact ⟨rfl, fun _ h ↦ h, fun _ did hdid ↦ by cases hdid⟩
  | cons did dids ih =>
    refine meets_op_bind.2 ⟨trivial, fun r _ ↦ ?_⟩
    cases r with
    | thrown => exact ⟨rfl, fun _ h ↦ h, fun h ↦ by cases h⟩
    | ok _ =>
      refine ih.mono fun t' r ⟨hcall, hsub, hall⟩ ↦ ⟨hcall, ?_, fun hr did' hdid ↦ ?_⟩
      · exact fun x hx ↦ hsub (List.mem_cons_of_mem _ hx)
      · rcases List.mem_cons.1 hdid with rfl | hdid
        · exact hsub List.mem_cons_self
        · exact hall hr did' hdid

theorem send_devices_meets {payload : NotifyMessage} {dids : List String} (delivered : ℕ)
    (h : ∀ did ∈ dids, ∀ user_seq, t.call.seq uid = some user_seq →
      ⟨uid, did, user_seq⟩ ∈ t.recorded) :
    (send_devices uid payload dids delivered).Meets deliveryContract t fun _ _ ↦ True := by
  induction dids generalizing delivered with
  | nil => trivial
  | cons did dids ih =>
    refine meets_op_bind.2 ⟨h did List.mem_cons_self, fun sent _ ↦ ?_⟩
    exact ih _ fun did' hdid ↦ h did' (List.mem_cons_of_mem _ hdid)

theorem PushToUser_meets (req : PushToUserReq) :
    (PushToUser cfg req).Meets deliveryContract ⟨.to_user req, []⟩ fun _ _ ↦ True := by
  refine (resolve_route_looks deliveryContract_ignores).bind fun t' route ht ↦ ?_
  obtain rfl := ht
  cases route with
  | thrown => trivial
  | ok route =>
    have hpersist : ∀ payload dids, (persist_all req payload dids).Meets deliveryContract
        ⟨.to_user req, []⟩ fun t' r ↦ t'.call = .to_user req ∧
          (r = .ok () → ∀ did ∈ dids, ∀ user_seq, req.user_seq = some user_seq →
            ⟨req.user_id, did, user_seq⟩ ∈ t'.recorded) := by
      intro payload dids
      rw [persist_all]
      cases hseq : req.user_seq with
      | none => exact ⟨rfl, fun _ _ _ _ h ↦ by cases h⟩
      | some user_seq =>
        refine (persist_devices_meets user_seq payload dids).mono fun t' r ⟨hcall, _, hall⟩ ↦ ?_
        refine ⟨hcall, fun hr did hdid seq' h ↦ ?_⟩
        obtain rfl := Option.some.inj h
        exact hall hr did hdid
    refine (hpersist _ _).bind fun t' r ⟨hcall, hall⟩ ↦ ?_
    cases r with
    | thrown => trivial
    | ok _ =>
      refine (send_devices_meets 0 fun did hdid user_seq h ↦ ?_).bind fun _ _ _ ↦ trivial
      rw [hcall, DeliveryCall.seq, if_pos rfl] at h
      exact hall rfl did hdid user_seq h

theorem batch_devices_meets {seq : Option UInt64} {payload : NotifyMessage} {dids : List String}
    (total : ℕ) (h : t.call.seq uid = seq) :
    (batch_devices uid seq payload dids total).Meets deliveryContract t fun t' _ ↦
      t'.call = t.call := by
  induction dids generalizing t total with
  | nil => rfl
  | cons did dids ih =>
    cases seq with
    | none =>
      refine meets_op_bind.2 ⟨fun user_seq h' ↦ ?_, fun sent _ ↦ ih _ h⟩
      rw [h] at h'
      cases h'
    | some user_seq =>
      refine meets_op_bind.2 ⟨trivial, fun r _ ↦ ?_⟩
      cases r with
      | thrown => rfl
      | ok _ =>
        refine meets_op_bind.2 ⟨fun user_seq' h' ↦ ?_, fun sent _ ↦ ih _ h⟩
        obtain rfl := Option.some.inj (h.symm.trans h')
        exact List.mem_cons_self

theorem batch_users_meets {req : PushBatchReq} (uids : List String) (total : ℕ)
    (ht : t.call = .batch req) :
    (batch_users cfg req uids total).Meets deliveryContract t fun _ _ ↦ True := by
  induction uids generalizing t total with
  | nil => trivial
  | cons uid uids ih =>
    refine (resolve_route_looks deliveryContract_ignores).bind fun t' route ht' ↦ ?_
    obtain rfl := ht'
    cases route with
    | thrown => trivial
    | ok route =>
      have hseq : t'.call.seq uid = find_seq req.user_seqs uid := by rw [ht, DeliveryCall.seq]
      refine (batch_devices_meets total hseq).bind fun t₁ total ht₁ ↦ ?_
      cases total with
      | thrown => trivial
      | ok total => exact ih total (ht₁.trans ht)

end PushService

/-! ### `onPushMessage` -/

variable {msg_info : Message} {trace_id : String}

theorem device_loop_records {seq : Option UInt64} {route : RouteEntry} (dids : List String)
    (any_local : Bool) (h : t.call.seq uid = seq) :
    (device_loop cfg msg_info trace_id uid seq route dids any_local).Meets deliveryContract t
      fun t' _ ↦ t'.call = t.call := by
  induction dids generalizing t any_local with
  | nil => rfl
  | cons did dids ih =>
    unfold device_loop
    split
    · cases seq with
      | none =>
        refine meets_op_bind.2 ⟨fun user_seq h' ↦ ?_, fun sent _ ↦ ih _ h⟩
        rw [h] at h'
        cases h'
      | some user_seq =>
        refine meets_op_bind.2 ⟨trivial, fun r _ ↦ ?_⟩
        cases r with
        | thrown => rfl
        | ok _ =>
          refine meets_op_bind.2 ⟨fun user_seq' h' ↦ ?_, fun sent _ ↦ ih _ h⟩
          obtain rfl := Option.some.inj (h.symm.trans h')
          exact List.mem_cons_self
    · exact ih _ h

theorem member_loop_records {internal_msg : InternalMessage} (uids remote_uids : List String)
    (h : ∀ uid, t.call.seq uid = find_seq internal_msg.user_seqs uid) :
    (member_loop cfg internal_msg trace_id uids remote_uids).Meets deliveryContract t
      fun _ _ ↦ True := by
  induction uids generalizing t remote_uids with
  | nil => trivial
  | cons uid uids ih =>
    refine (resolve_route_looks deliveryContract_ignores).bind fun t' route ht' ↦ ?_
    obtain rfl := ht'
    cases route with
    | thrown => trivial
    | ok route =>
      show (ite _ _ _ : PushM _).Meets _ _ _
      split
      · exact ih _ h
      · refine (device_loop_records _ false (h uid)).bind fun t₁ any_local ht₁ ↦ ?_
        cases any_local with
        | none => trivial
        | some any_local => exact ih _ fun uid' ↦ (congrArg (·.seq uid') ht₁).trans (h uid')

theorem group_loop_records (uids : List String) (m : PeerMap) :
    (group_loop cfg uids m).Meets deliveryContract t fun _ _ ↦ True := by
  induction uids generalizing m with
  | nil => trivial
  | cons uid uids ih =>
    refine (resolve_route_looks deliveryContract_ignores).bind fun t' route ht' ↦ ?_
    obtain rfl := ht'
    cases route with
    | thrown => trivial
    | ok route => exact ih _

theorem batch_loop_records {internal_msg : InternalMessage}
    (peers : List (Σ _ : String, List String)) :
    (batch_loop internal_msg trace_id peers).Meets deliveryContract t fun _ _ ↦ True := by
  induction peers with
  | nil => trivial
  | cons peer peers ih =>
    refine meets_bind_of_ignores deliveryContract_ignores trivial fun channel ↦ ?_
    cases channel with
    | none => trivial
    | some channel =>
      refine meets_bind_of_ignores deliveryContract_ignores trivial fun pushed ↦ ?_
      cases pushed with
      | false => trivial
      | true => exact ih

theorem onPushMessage_meets (body : List UInt8) :
    (onPushMessage cfg trace_id body).Meets deliveryContract ⟨.message trace_id body, []⟩
      fun _ _ ↦ True := by
  rw [onPushMessage]
  cases hparse : InternalMessage.codec.parse body with
  | none => trivial
  | some internal_msg =>
    refine (member_loop_records _ [] fun uid ↦ ?_).bind fun t' remote_uids _ ↦ ?_
    · rw [DeliveryCall.seq, hparse]
      rfl
    · cases remote_uids with
      | none => trivial
      | some remote_uids =>
        show (ite _ _ _ : PushM _).Meets _ _ _
        split
        · trivial
        · refine (group_loop_records remote_uids ∅).bind fun t₁ peers _ ↦ ?_
          cases peers with
          | none => trivial
          | some peers => exact batch_loop_records peers.entries

/-- **Every call meets the contract.** -/
theorem DeliveryCall.text_meets (cfg : PushConfig) (c : DeliveryCall) :
    (c.text cfg).Meets deliveryContract ⟨c, []⟩ fun _ _ ↦ True := by
  cases c with
  | to_user req => exact (PushService.PushToUser_meets req).bind fun _ _ _ ↦ trivial
  | batch req =>
    refine Meets.bind (Q := fun _ _ ↦ True) ?_ fun _ _ _ ↦ trivial
    refine (PushService.batch_users_meets _ 0 rfl).bind fun t' total _ ↦ ?_
    cases total <;> trivial
  | message trace_id body => exact (onPushMessage_meets body).bind fun _ _ _ ↦ trivial

end Meets

/-! ### The invariant -/

section Invariant

open UnackedPush

variable {b64 : NotifyMessage → String} {expirable : ℤ → Bool} {ts : List DeliveryThread}
  {s s' : DeliveryState} {i : ℕ} {t : DeliveryThread} {x : Numbered} {L : Ledger ℤ}
  {uid did : String}

theorem agrees_self {exp : String → Option String} (h : Agrees L exp) : Agrees L (hget L) := by
  rw [show hget L = exp from funext h.payload]
  exact h

/-- A push that succeeds has written its entry. -/
theorem hget_push (h : Agrees L (hget L)) {score : Option ℤ} {seq payload : String}
    {ttl : Option ℤ} {n : ℤ} (hok : (push expirable L score seq payload ttl).1 = .ok n) :
    (hget (push expirable L score seq payload ttl).2 seq).isSome = true := by
  have hvalid : Valid score ttl := by
    unfold push at hok
    split at hok
    · next score ttl =>
      split at hok
      · cases hok
      · next hpos => exact ⟨rfl, ttl, rfl, by omega⟩
    · cases hok
  rw [(push_agrees h score seq payload ttl).payload, if_pos ⟨rfl, hvalid⟩]
  rfl

/-- And it drops no other. -/
theorem hget_push_of_isSome (h : Agrees L (hget L)) (score : Option ℤ) (seq payload : String)
    (ttl : Option ℤ) (q : String) (hq : (hget L q).isSome = true) :
    (hget (push expirable L score seq payload ttl).2 q).isSome = true := by
  rw [(push_agrees h score seq payload ttl).payload]
  split
  · rfl
  · exact hq

/-- The client has acknowledged it, or it is in the ledger. -/
def DeliveryState.Kept (s : DeliveryState) (x : Numbered) : Prop :=
  x ∈ s.acked ∨ (hget (s.ledger x) x.member).isSome = true

/-- What holds of the calls and the ledgers. -/
structure DeliveryInv (ts : List DeliveryThread) (s : DeliveryState) : Prop where
  calls : s.calls = ts.map (·.call)
  ledgers : ∀ key, Agrees (s.ledgers key) (hget (s.ledgers key))
  recorded : ∀ t ∈ ts, ∀ x ∈ t.recorded, s.Kept x
  sent : ∀ x ∈ s.sent, s.Kept x

theorem ledgers_set (key : String × String) :
    (s.set uid did L).ledgers key = if key = (uid, did) then L else s.ledgers key := by
  split
  · next heq =>
    rw [heq]
    exact Function.update_self ..
  · next hne => exact Function.update_of_ne hne ..

/-- A ledger that loses nothing. -/
theorem Kept_set (h : s.Kept x)
    (hkeep : ∀ q, (hget (s.ledgers (uid, did)) q).isSome = true → (hget L q).isSome = true) :
    (s.set uid did L).Kept x := by
  refine h.imp_right fun hsome ↦ ?_
  rw [DeliveryState.ledger, ledgers_set]
  split
  · next heq =>
    refine hkeep _ ?_
    rwa [← heq]
  · exact hsome

/-- A script that loses nothing. -/
theorem DeliveryInv.writes (h : DeliveryInv ts s) (hL : Agrees L (hget L))
    (hkeep : ∀ q, (hget (s.ledgers (uid, did)) q).isSome = true → (hget L q).isSome = true) :
    DeliveryInv ts (s.set uid did L) where
  calls := h.calls
  ledgers key := by
    rw [ledgers_set]
    split
    · exact hL
    · exact h.ledgers key
  recorded t ht x hx := Kept_set (h.recorded t ht x hx) hkeep
  sent x hx := Kept_set (h.sent x hx) hkeep

/-- A script under which the payloads stay what they are. -/
theorem DeliveryInv.repairs (h : DeliveryInv ts s)
    (hL : Agrees L (hget (s.ledgers (uid, did)))) : DeliveryInv ts (s.set uid did L) :=
  h.writes (agrees_self hL) fun q hq ↦ (hL.payload q).symm ▸ hq

/-- A thread moves on. -/
theorem DeliveryInv.moves (h : DeliveryInv ts s) (hi : ts[i]? = some t) {recorded : List Numbered}
    (hrecorded : ∀ x ∈ recorded, s.Kept x) : DeliveryInv (ts.set i { t with recorded }) s where
  calls := by
    rw [h.calls]
    exact (Pool.map_set_eq (u := { t with recorded }) (f := DeliveryThread.call) hi rfl).symm
  ledgers := h.ledgers
  recorded u hu x hx := by
    rcases List.mem_or_eq_of_mem_set hu with hu | rfl
    · exact h.recorded u hu x hx
    · exact hrecorded x hx
  sent := h.sent

theorem DeliveryInv.stays (h : DeliveryInv ts s) (hi : ts[i]? = some t) :
    DeliveryInv (ts.set i t) s :=
  h.moves hi (h.recorded t (List.mem_of_getElem? hi))

/-- The ledger is written for a thread. -/
theorem DeliveryInv.persists (h : DeliveryInv ts s) (hi : ts[i]? = some t) (user_seq : UInt64)
    (payload : NotifyMessage) (c : DeliveryChoice) {r : Reply Unit}
    (hx : DeliveryState.exec b64 expirable i (.persistUnacked uid did user_seq payload) c s =
      some (r, s')) :
    DeliveryInv (ts.set i (deliveryContract.next t (.persistUnacked uid did user_seq payload) r))
      s' := by
  have hL := h.ledgers (uid, did)
  have hwritten : DeliveryInv ts (s.set uid did (push expirable (s.ledgers (uid, did))
      (some c.now) (Numbered.member ⟨uid, did, user_seq⟩) (b64 payload) (some c.ttl)).2) :=
    h.writes (agrees_self (push_agrees hL ..)) fun q hq ↦ hget_push_of_isSome hL _ _ _ _ q hq
  obtain ⟨hr, rfl⟩ := Prod.mk.inj (Option.some.inj hx)
  cases hfault : c.fault with
  | true =>
    rw [hfault] at hr
    obtain rfl := hr
    cases c.late with
    | true => exact hwritten.stays hi
    | false => exact h.stays hi
  | false =>
    rw [hfault] at hr
    split at hr
    · next n _ hok =>
      obtain rfl := hr
      refine hwritten.moves hi fun x hmem ↦ ?_
      rcases List.mem_cons.1 hmem with rfl | hmem
      · refine .inr ?_
        rw [DeliveryState.ledger, ledgers_set, if_pos rfl]
        exact hget_push hL hok
      · exact hwritten.recorded t (List.mem_of_getElem? hi) x hmem
    · obtain rfl := hr
      exact hwritten.stays hi

/-- A thread sends. -/
theorem DeliveryInv.sends (h : DeliveryInv ts s) (hi : ts[i]? = some t)
    (hrecorded : ∀ user_seq, t.call.seq uid = some user_seq → ⟨uid, did, user_seq⟩ ∈ t.recorded) :
    DeliveryInv ts (s.send i uid did) := by
  have hcall : s.calls[i]? = some t.call := by
    rw [h.calls, List.getElem?_map, hi]
    rfl
  rw [DeliveryState.send, hcall, Option.bind_some]
  cases hseq : t.call.seq uid with
  | none => exact h
  | some user_seq =>
    refine { h with sent := fun x hmem ↦ ?_ }
    rcases List.mem_cons.1 hmem with rfl | hmem
    · exact h.recorded t (List.mem_of_getElem? hi) _ (hrecorded user_seq hseq)
    · exact h.sent x hmem

/-- **Every call of a thread.** -/
theorem deliveryInv_call {o : PushOp} {c : DeliveryChoice} {r : o.Res} (h : DeliveryInv ts s)
    (hi : ts[i]? = some t) (ha : deliveryContract.allowed t o)
    (hx : DeliveryState.exec b64 expirable i o c s = some (r, s')) :
    DeliveryInv (ts.set i (deliveryContract.next t o r)) s' := by
  cases o with
  | persistUnacked uid did user_seq payload => exact h.persists hi user_seq payload c hx
  | localSend uid did payload =>
    obtain ⟨-, rfl⟩ := Prod.mk.inj (Option.some.inj hx)
    exact (h.stays hi).sends (Pool.getElem?_set_self hi) ha
  | _ =>
    obtain ⟨-, rfl⟩ := Prod.mk.inj (Option.some.inj hx)
    exact h.stays hi

/-- A client acknowledges: the entry goes, and no other. -/
theorem DeliveryInv.acks (h : DeliveryInv ts s) (x : Numbered) :
    DeliveryInv ts { s.set x.uid x.did (ack (s.ledger x) x.member).2 with
      acked := x :: s.acked } := by
  have hL : Agrees (s.ledger x) (hget (s.ledger x)) := h.ledgers (x.uid, x.did)
  have hacked := ack_agrees hL x.member
  have hkept : ∀ y, s.Kept y → y ∈ x :: s.acked ∨
      (hget ((s.set x.uid x.did (ack (s.ledger x) x.member).2).ledger y) y.member).isSome =
        true := by
    rintro y (hy | hy)
    · exact .inl (List.mem_cons_of_mem _ hy)
    · rw [DeliveryState.ledger, ledgers_set]
      split
      · next heq =>
        obtain ⟨huid, hdid⟩ := Prod.mk.inj heq
        rw [hacked.payload]
        split
        · next hmember =>
          have hseq : y.user_seq = x.user_seq := UInt64.toNat_inj.1 (toString_inj.1 hmember)
          refine .inl (List.mem_cons.2 (.inl ?_))
          show (⟨y.uid, y.did, y.user_seq⟩ : Numbered) = ⟨x.uid, x.did, x.user_seq⟩
          rw [huid, hdid, hseq]
        · refine .inr ?_
          rw [DeliveryState.ledger, heq] at hy
          exact hy
      · exact .inr hy
  refine ⟨h.calls, fun key ↦ ?_, fun t ht y hy ↦ hkept y (h.recorded t ht y hy),
    fun y hy ↦ hkept y (h.sent y hy)⟩
  show Agrees ((s.set x.uid x.did _).ledgers key) _
  rw [ledgers_set]
  split
  · exact agrees_self hacked
  · exact h.ledgers key

theorem deliveryInv_event {p p' : DeliveryPool} {e : DeliveryEv} (h : DeliveryInv ts p.shared)
    (hm : p.Meets deliveryContract (fun _ ↦ True) ts)
    (hx : DeliveryState.env expirable e p = some p') :
    ∃ ts', DeliveryInv ts' p'.shared ∧ p'.Meets deliveryContract (fun _ ↦ True) ts' := by
  cases e with
  | arrive cfg c =>
    obtain rfl := Option.some.inj hx
    refine ⟨ts ++ [⟨c, []⟩], ⟨?_, h.ledgers, fun t ht x hmem ↦ ?_, h.sent⟩,
      hm.spawn (c.text_meets cfg) _⟩
    · show _ ++ _ = _
      rw [h.calls, List.map_append]
      rfl
    · rcases List.mem_append.1 ht with ht | ht
      · exact h.recorded t ht x hmem
      · obtain rfl := List.mem_singleton.1 ht
        cases hmem
  | ack x =>
    obtain rfl := Option.some.inj hx
    exact ⟨ts, h.acks x, hm⟩
  | peek uid did H pttl cutoff limit =>
    obtain rfl := Option.some.inj hx
    exact ⟨ts, h.repairs (peek_due_agrees (h.ledgers _) H pttl cutoff limit), hm⟩
  | bump uid did ttl score seqs =>
    obtain rfl := Option.some.inj hx
    exact ⟨ts, h.repairs (bump_score_agrees (h.ledgers _) ttl score seqs), hm⟩
  | crash i =>
    obtain rfl := Option.some.inj hx
    exact ⟨ts, h, hm.stop (fun _ ↦ trivial) i _⟩

end Invariant

/-- Nothing has happened yet; the ledgers may have entries. -/
structure DeliveryState.Fresh (s : DeliveryState) : Prop where
  ledgers : ∀ key, UnackedPush.Agrees (s.ledgers key) (UnackedPush.hget (s.ledgers key))
  calls : s.calls = []
  sent : s.sent = []

/-- **What has been sent and not acknowledged is in the ledger**, with its payload and its time, so
that a heartbeat finds it when it is due: however the calls on all instances and the heartbeats
interleave, and whatever fails. -/
theorem sent_is_recorded (b64 : NotifyMessage → String) (expirable : ℤ → Bool)
    (s₀ : DeliveryState) (hs : s₀.Fresh) (p : DeliveryPool)
    (hr : (delivery b64 expirable).Reach .any ⟨[], s₀⟩ p) (x : Numbered)
    (hx : x ∈ p.shared.sent) :
    x ∈ p.shared.acked ∨ (UnackedPush.hget (p.shared.ledger x) x.member).isSome = true ∧
      (UnackedPush.zscore (p.shared.ledger x) x.member).isSome = true := by
  have h₀ : DeliveryInv [] s₀ := by
    refine ⟨hs.calls, hs.ledgers, fun t ht ↦ ?_, fun y hy ↦ ?_⟩
    · cases ht
    · rw [hs.sent] at hy
      cases hy
  obtain ⟨ts, h, -⟩ : ∃ ts, DeliveryInv ts p.shared ∧
      p.Meets deliveryContract (fun _ ↦ True) ts := by
    refine Machine.invariant hr ⟨[], h₀, .nil⟩ ?_ ?_
    · intro ts s i t o c r s' h hi ha _ hx
      exact ⟨trivial, deliveryInv_call h hi ha hx⟩
    · intro ts p e p' h hm _ hx
      exact deliveryInv_event h hm hx
  exact (h.sent x hx).imp_right fun hsome ↦
    ⟨hsome, ((h.ledgers (x.uid, x.did)).member x.member).2 hsome⟩

/-- Nothing, and empty ledgers. -/
theorem fresh_delivery : ({} : DeliveryState).Fresh where
  ledgers _ := ⟨⟨.inl rfl, .inl rfl⟩, fun _ ↦ rfl, fun _ ↦ Iff.rfl⟩
  calls := rfl
  sent := rfl

/-- Something with number 7 for all devices of bob. -/
def forBob : PushToUserReq where
  user_id := "bob"
  user_seq := some 7

/-- Bob has two devices: it is recorded for both, and sent to the first, which acknowledges it. -/
def sentToBob : List (Machine.Label DeliveryChoice DeliveryEv) :=
  [.event (.arrive { instance_id := "push1", local_route_cache := false } (.to_user forBob)),
    .call 0 { devices := .ok (AList.insert "phone" "push1" (AList.insert "laptop" "push1" ∅)) },
    .call 0 {}, .call 0 {}, .call 0 {}, .call 0 {},
    .event (.ack ⟨"bob", "phone", 7⟩)]

/-- What has been sent to the second is still in its ledger. -/
theorem sent_is_recorded_bob :
    ({} : DeliveryState).Fresh ∧ ∃ p,
      (delivery (fun _ ↦ "cGF5bG9hZA==") (fun _ ↦ true)).Reach .any ⟨[], {}⟩ p ∧
      ⟨"bob", "laptop", 7⟩ ∈ p.shared.sent ∧ ⟨"bob", "laptop", 7⟩ ∉ p.shared.acked ∧
      (UnackedPush.hget (p.shared.ledgers ("bob", "laptop")) "7").isSome = true ∧
      (UnackedPush.zscore (p.shared.ledgers ("bob", "laptop")) "7").isSome = true := by
  obtain ⟨p, hp, hsent, hnot⟩ := Machine.exists_of_run
    (delivery (fun _ ↦ "cGF5bG9hZA==") (fun _ ↦ true)) .any ⟨[], {}⟩ sentToBob
    (fun p ↦ ⟨"bob", "laptop", 7⟩ ∈ p.shared.sent ∧ ⟨"bob", "laptop", 7⟩ ∉ p.shared.acked)
    (by decide +kernel)
  exact ⟨fresh_delivery, p, hp, hsent, hnot, (sent_is_recorded _ _ {} fresh_delivery p hp
    ⟨"bob", "laptop", 7⟩ hsent).resolve_left hnot⟩

end ChatNow
