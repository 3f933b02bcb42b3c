import ChatNow.Pipeline.Machine

/-!
# The moves of the pipeline

The abstract reading of the pipeline's runs. Every thread of the pool is a request, a delivery or a
sync call in some phase of its contract (`Thread`), and a step of the pool is one of a few dozen
**moves** on the list of phases and the stores:

* `SendMove`, `ConsumeMove`, `SyncMove` — what one call of a thread does, phase by phase;
* `EventMove` — what an event does;
* `Move` — any of them.

`pipeline_invariant` is the rule that all the properties of the pipeline are proved with: what holds
at the start and survives every move holds in every reachable state. It rests on the contracts of
the handlers (`sendMessage_meets`, `consume_meets`, `sync_call_meets`) and on one look at each
operation (`sendMove_of_exec`, `consumeMove_of_exec`, `syncMove_of_exec`); neither is needed again.
-/

namespace ChatNow

open Prog PipeOp OnDBMessage

/-- What a thread of the pool is, and where it stands. -/
inductive Thread
  | send (uid : String) (req : SendMessageReq) (ph : SendPhase)
  | consume (d : Delivery) (ph : ConsumePhase)
  | sync (client : ℕ) (cid : String) (after_seq : UInt64) (ph : SyncPhase)
  /-- A handler whose process has crashed. -/
  | dead

/-- The contract of the threads of the pool, each by its own. -/
def pipeContract (cfg : PipeConfig) : Contract PipeOp PipeOp.Res Thread where
  allowed
    | .send uid req ph, o =>
      (sendContract (sendKey cfg.transmite uid req.client_msg_id) uid req).allowed ph o
    | .consume d ph, o => (consumeContract cfg.message d.msg d.redelivered).allowed ph o
    | .sync client cid after_seq ph, o => (syncContract client cid after_seq).allowed ph o
    | .dead, _ => False
  admits _ o r := o.Answers r
  next
    | .send uid req ph, o, r => .send uid req
      ((sendContract (sendKey cfg.transmite uid req.client_msg_id) uid req).next ph o r)
    | .consume d ph, o, r =>
      .consume d ((consumeContract cfg.message d.msg d.redelivered).next ph o r)
    | .sync client cid after_seq ph, o, r =>
      .sync client cid after_seq ((syncContract client cid after_seq).next ph o r)
    | .dead, _, _ => .dead

/-- Where a thread that has returned stands. -/
def Thread.Done : Thread → Prop
  | consume _ ph => ph = .settled
  | _ => True

/-! ### The moves of a request -/

/-- A call on Redis. -/
def PipeOp.onRedis : PipeOp → Bool
  | redisSetNx _ _ => true
  | redisGet _ => true
  | redisDel _ => true
  | redisSet _ _ => true
  | _ => false

/-- A publish joins the wire. -/
def Pipe.post (s : Pipe) (e : Posted) : Pipe := { s with wire := s.wire ++ [e] }

/-- Only the counters differ. -/
def Pipe.Counted (s s' : Pipe) : Prop :=
  ∃ session_seq user_seq issued,
    s' = { s with session_seq := session_seq, user_seq := user_seq, issued := issued }

/-- What one call of a request does, from a phase and a state to a phase and a state. A command that
throws may have been executed unseen. -/
inductive SendMove (collate : String → String) (key : Option String) (uid : String)
    (req : SendMessageReq) (i : ℕ) :
    PipeOp → Choice → SendPhase → Pipe → SendPhase → Pipe → Prop
  | take {k : String} {c : Choice} {ph : SendPhase} {s : Pipe} (hk : key = some k)
      (hph : ph = .start ∨ ph = .cleared) (hfree : s.redis k = none) :
      SendMove collate key uid req i (redisSetNx k SendMessage.pending) c ph s (.active true)
        (s.setKey i k (some SendMessage.pending))
  | takeUnseen {k : String} {c : Choice} {ph : SendPhase} {s : Pipe} (hk : key = some k)
      (hf : c.fault = true) (hph : ph = .start ∨ ph = .cleared) (hfree : s.redis k = none) :
      SendMove collate key uid req i (redisSetNx k SendMessage.pending) c ph s (.active false)
        (s.setKey i k (some SendMessage.pending))
  | refuse {k : String} {c : Choice} {ph ph' : SendPhase} {s : Pipe} (hk : key = some k)
      (hph : ph = .start ∧ ph' = .refused ∨ ph = .cleared ∧ ph' = .turnedAway) :
      SendMove collate key uid req i (redisSetNx k SendMessage.pending) c ph s ph' s
  | look {k : String} {c : Choice} {s : Pipe} (hk : key = some k) :
      SendMove collate key uid req i (redisGet k) c .refused s (.ofCached (s.redis k)) s
  | failOpen {k : String} {o : PipeOp} {c : Choice} {ph : SendPhase} {s : Pipe} (hk : key = some k)
      (ho : o.onRedis = true) (hf : c.fault = true)
      (hph : ph = .start ∨ ph = .refused ∨ ph = .cleared) :
      SendMove collate key uid req i o c ph s (.active false) s
  | find {c : Choice} {ph : SendPhase} {s : Pipe} {row : MessageRow}
      (hph : (∃ id, ph = .sawId id) ∨ ph = .sawPending)
      (hrow : select_by_client_msg collate s.rows uid req.client_msg_id = some row) :
      SendMove collate key uid req i (selectByClientMsg uid req.client_msg_id) c ph s
        (.found (convert_db_message_to_proto_ row)) s
  | clear {k : String} {c : Choice} {s : Pipe} (hk : key = some k) :
      SendMove collate key uid req i (redisDel k) c .sawCorrupt s .cleared
        ((s.release i).setKey i k none)
  | clearFault {k : String} {c : Choice} {s : Pipe} (hk : key = some k) :
      SendMove collate key uid req i (redisDel k) c .sawCorrupt s .cleared s
  | giveUp {k : String} {c : Choice} {s : Pipe} (hk : key = some k) :
      SendMove collate key uid req i (redisDel k) c (.active true) s .released
        ((s.release i).setKey i k none)
  | giveUpUnseen {k : String} {c : Choice} {s : Pipe} (hk : key = some k) (hf : c.fault = true) :
      SendMove collate key uid req i (redisDel k) c (.active true) s (.active true)
        ((s.release i).setKey i k none)
  | publish {c : Choice} {s : Pipe} {own : Bool} {msg : InternalMessage}
      (hmsg : Assembled uid req msg) :
      SendMove collate key uid req i (publishConfirm msg) c (.active own) s (.inflight own msg)
        (s.post { tid := i, msg := msg, sent := true })
  | publishThrow {c : Choice} {s : Pipe} {own : Bool} {msg : InternalMessage}
      (hmsg : Assembled uid req msg) :
      SendMove collate key uid req i (publishConfirm msg) c (.active own) s (.failing own msg)
        (s.post { tid := i, msg := msg, sent := false, reported := some .Error })
  | ack {c : Choice} {s : Pipe} {own : Bool} {msg : InternalMessage} {e : Posted} (he : e ∈ s.wire)
      (hi : e.tid = i) (hr : e.received = true) :
      SendMove collate key uid req i awaitConfirm c (.inflight own msg) s (.acked own msg)
        (s.report i .Acked)
  | nack {c : Choice} {s : Pipe} {own : Bool} {msg : InternalMessage} {st : PublishStatus}
      (hst : st ≠ .Acked) :
      SendMove collate key uid req i awaitConfirm c (.inflight own msg) s (.failing own msg)
        (s.report i st)
  | accept {k : String} {c : Choice} {s : Pipe} {own : Bool} {msg : InternalMessage}
      (hk : key = some k) :
      SendMove collate key uid req i (redisSet k (acceptedValue msg.message)) c (.acked own msg) s
        (.acked own msg) (s.setKey i k (some (acceptedValue msg.message)))
  | fail {k : String} {c : Choice} {s : Pipe} {own : Bool} {msg : InternalMessage}
      (hk : key = some k) :
      SendMove collate key uid req i (redisDel k) c (.failing own msg) s (.failed own msg)
        ((s.release i).setKey i k none)
  | failUnseen {k : String} {c : Choice} {s : Pipe} {own : Bool} {msg : InternalMessage}
      (hk : key = some k) (hf : c.fault = true) :
      SendMove collate key uid req i (redisDel k) c (.failing own msg) s (.failing own msg)
        ((s.release i).setKey i k none)
  | reply {c : Choice} {ph : SendPhase} {s : Pipe} {rsp : SendMessageRsp}
      (hrsp : rsp.header.success = true → ∃ m, rsp.message = some m ∧ ph.Vouches m.message_id) :
      SendMove collate key uid req i (reply rsp) c ph s ph
        { s with replies := s.replies ++ [(i, rsp)] }
  | quiet {o : PipeOp} {c : Choice} {ph : SendPhase} {s s' : Pipe} (hs : s.Counted s') :
      SendMove collate key uid req i o c ph s ph s'

/-! ### The moves of a delivery -/

/-- What one call of a delivery does. -/
inductive ConsumeMove (collate : String → String) (cfg : MessageConfig) (d : Delivery) (i : ℕ) :
    PipeOp → Choice → ConsumePhase → Pipe → ConsumePhase → Pipe → Prop
  /-- When the call has failed, the delivery does not know of its commit. -/
  | commit {c : Choice} {s : Pipe} {ph' : ConsumePhase} {e : Extracted}
      (he : accepted_content d.msg.message.content = some e)
      (hph : c.fault = false ∧ ph' = .committed ∨ c.fault = true ∧ c.late = true ∧ ph' = .failed)
      (hfree : ¬ conflicts collate s.rows (row_of d.msg.message e)) :
      ConsumeMove collate cfg d i (insertMessage (row_of d.msg.message e) (timeline_of d.msg)) c
        .fresh s ph' (s.commit i (row_of d.msg.message e) (timeline_of d.msg))
  | mark {c : Choice} {s : Pipe} (hc : d.msg.message.client_msg_id ≠ "")
      (hid : d.msg.message.message_id.toUInt64 ≠ 0) :
      ConsumeMove collate cfg d i
        (redisSet (idempotency_key_for d.msg.message.sender_id d.msg.message.client_msg_id)
          (persistedValue d.msg.message)) c .committed s .committed
        (s.setKey i (idempotency_key_for d.msg.message.sender_id d.msg.message.client_msg_id)
          (some (persistedValue d.msg.message)))
  | post {c : Choice} {s : Pipe} :
      ConsumeMove collate cfg d i (pushPublish d.msg) c .committed s .posted
        { s with push_pending := s.push_pending ++ [{ tid := i, payload := d.msg }] }
  | enqueue {c : Choice} {ph : ConsumePhase} {s : Pipe}
      (hph : ph = .committed ∨ ph = .pushThrew) :
      ConsumeMove collate cfg d i (pushEnqueue d.msg) c ph s .enqueued
        { s with push_outbox := s.push_outbox ++ [d.msg] }
  | settle {c : Choice} {ph : ConsumePhase} {s : Pipe} {action : ConsumeAction}
      (hph : ph = .committed ∨ ph = .pushThrew → cfg.push_outbox = false) :
      ConsumeMove collate cfg d i (.settle action) c ph s .settled (s.settle i action)
  /-- The calls that change no store; after a commit they leave it on record. -/
  | quiet {o : PipeOp} {c : Choice} {ph ph' : ConsumePhase} {s : Pipe}
      (hnew : ph' = .committed → ph = .committed)
      (hold : ph = .committed ∨ ph = .pushThrew → ph' = ph ∨ ph' = .pushThrew) :
      ConsumeMove collate cfg d i o c ph s ph' s

/-! ### The moves of a sync call -/

/-- What one call of a sync call does. -/
inductive SyncMove (client : ℕ) (cid : String) (after_seq : UInt64) :
    PipeOp → Choice → SyncPhase → Pipe → SyncPhase → Pipe → Prop
  | read {limit : ℕ} {c : Choice} {s : Pipe} {page : List MessageRow}
      (hpage : page <+: select_after s.rows cid after_seq limit) :
      SyncMove client cid after_seq (selectAfter cid after_seq limit) c .asking s (.read page)
        { s with pages := s.pages ++ [(cid, page)] }
  | deliver {c : Choice} {ph : SyncPhase} {s : Pipe} {rsp : SyncMessagesRsp}
      {page : List MessageRow}
      (hph : ph = .read page ∨ ph = .asking ∧ page = [])
      (hrsp : rsp.messages = page.map convert_db_message_to_proto_) :
      SyncMove client cid after_seq (syncReply client cid rsp) c ph s .answered
        { s with inbox := Function.update s.inbox client (Function.update (s.inbox client) cid
            (s.inbox client cid ++ rsp.messages)) }
  | quiet {o : PipeOp} {c : Choice} {ph : SyncPhase} {s : Pipe} :
      SyncMove client cid after_seq o c ph s ph s

/-! ### The moves of the environment -/

/-- What recalling and deleting do to the rows: they keep what identifies a message, and bring no
deleted one back. -/
structure RowUpdate (f : MessageRow → MessageRow) : Prop where
  message_id : ∀ r, (f r).message_id = r.message_id
  seq_id : ∀ r, (f r).seq_id = r.seq_id
  session_id : ∀ r, (f r).session_id = r.session_id
  user_id : ∀ r, (f r).user_id = r.user_id
  client_msg_id : ∀ r, (f r).client_msg_id = r.client_msg_id
  live : ∀ r, (f r).status ≠ .DELETED → r.status ≠ .DELETED

theorem rowUpdate_recalled (mid : UInt64) : RowUpdate (update_status_to_recalled mid) := by
  constructor <;> intro r <;> unfold update_status_to_recalled <;> split <;>
    first | rfl | exact id | (next h => exact fun _ ↦ by simp [h.2])

theorem rowUpdate_deleted (mid : UInt64) : RowUpdate (mark_deleted mid) := by
  constructor <;> intro r <;> unfold mark_deleted <;> split <;>
    first | rfl | exact id | exact fun h ↦ absurd rfl h

/-- What an event does to the threads and the stores. -/
inductive EventMove (cfg : PipeConfig) : PipeEv → List Thread → Pipe → List Thread → Pipe → Prop
  | request {ts : List Thread} {s : Pipe} (uid : String) (req : SendMessageReq) :
      EventMove cfg (.request uid req) ts s
        (ts ++ [.send uid req (sendStart cfg.transmite req.client_msg_id)])
        { s with requests := s.requests ++ [(ts.length, uid, req)] }
  | receive {ts : List Thread} {s : Pipe} {n : ℕ} {e : Posted} (hn : s.wire[n]? = some e)
      (hnew : e.received = false) :
      EventMove cfg (.receive n) ts s ts
        { s with wire := s.wire.set n { e with received := true }
                 queue := s.queue ++ [⟨e.msg, false⟩] }
  | deliver {ts : List Thread} {s : Pipe} {n : ℕ} {d : Delivery} (hn : s.queue[n]? = some d) :
      EventMove cfg (.deliver n) ts s (ts ++ [.consume d .fresh])
        { s with queue := s.queue.eraseIdx n
                 unacked := s.unacked ++ [(ts.length, d)]
                 deliveries := s.deliveries ++ [(ts.length, d)] }
  | lose {ts : List Thread} {s : Pipe} (i : ℕ) : EventMove cfg (.lose i) ts s ts (s.requeue i)
  | crash {ts : List Thread} {s : Pipe} {i : ℕ} (hi : i ∈ s.deliveries.map (·.1)) :
      EventMove cfg (.crash i) ts s (ts.set i .dead)
        { s.requeue i with push_pending := s.push_pending.filter fun e ↦ e.tid ≠ i }
  | pushAccept {ts : List Thread} {s : Pipe} {n : ℕ} {e : PushPending}
      (hn : s.push_pending[n]? = some e) :
      EventMove cfg (.pushAccept n) ts s ts
        { s with push_pending := s.push_pending.set n { e with accepted := true }
                 push_exchange := s.push_exchange ++ [e.payload] }
  | pushAcked {ts : List Thread} {s : Pipe} {n : ℕ} {e : PushPending}
      (hn : s.push_pending[n]? = some e) (hacc : e.accepted = true) :
      EventMove cfg (.pushConfirm n .Acked) ts s ts
        { s with push_pending := s.push_pending.eraseIdx n }
  | pushFailed {ts : List Thread} {s : Pipe} {n : ℕ} {e : PushPending} {st : PublishStatus}
      (hn : s.push_pending[n]? = some e) (hst : st ≠ .Acked) :
      EventMove cfg (.pushConfirm n st) ts s ts
        { s with push_pending := s.push_pending.eraseIdx n
                 push_outbox := if cfg.message.push_outbox then s.push_outbox ++ [e.payload]
                                else s.push_outbox }
  | sync {ts : List Thread} {s : Pipe} (client : ℕ) (rid uid cid : String) (limit : Int32) :
      EventMove cfg (.sync client rid uid cid limit) ts s
        (ts ++ [.sync client cid (cursor (s.inbox client cid)) .asking]) s
  | update {ts : List Thread} {s : Pipe} {ev : PipeEv} {f : MessageRow → MessageRow}
      (hf : RowUpdate f) : EventMove cfg ev ts s ts { s with rows := s.rows.map f }

/-- Assumptions on the steps of the pipeline. -/
abbrev PipeGuard := Machine.Guard PipeOp PipeOp.Res Pipe Choice PipeEv

/-- A step of the pipeline, on the phases of its threads and the stores. -/
inductive Move (cfg : PipeConfig) (G : PipeGuard) :
    List Thread → Pipe → List Thread → Pipe → Prop
  | send {ts : List Thread} {s s' : Pipe} {i : ℕ} {uid : String} {req : SendMessageReq}
      {ph ph' : SendPhase} {o : PipeOp} {c : Choice} (hi : ts[i]? = some (.send uid req ph))
      (hG : G.onOp i o c s)
      (h : SendMove cfg.collate (sendKey cfg.transmite uid req.client_msg_id) uid req i o c ph s ph'
        s') :
      Move cfg G ts s (ts.set i (.send uid req ph')) s'
  | consume {ts : List Thread} {s s' : Pipe} {i : ℕ} {d : Delivery} {ph ph' : ConsumePhase}
      {o : PipeOp} {c : Choice} (hi : ts[i]? = some (.consume d ph)) (hG : G.onOp i o c s)
      (h : ConsumeMove cfg.collate cfg.message d i o c ph s ph' s') :
      Move cfg G ts s (ts.set i (.consume d ph')) s'
  | sync {ts : List Thread} {s s' : Pipe} {i client : ℕ} {cid : String} {after_seq : UInt64}
      {ph ph' : SyncPhase} {o : PipeOp} {c : Choice}
      (hi : ts[i]? = some (.sync client cid after_seq ph)) (hG : G.onOp i o c s)
      (h : SyncMove client cid after_seq o c ph s ph' s') :
      Move cfg G ts s (ts.set i (.sync client cid after_seq ph')) s'
  | event {ts ts' : List Thread} {s s' : Pipe} {p : PipePool} {e : PipeEv} (hG : G.onEv e p)
      (hp : p.shared = s) (h : EventMove cfg e ts s ts' s') : Move cfg G ts s ts' s'

/-! ### The simulation -/

/-- Either no id is given out, or one that has not been given out before. -/
theorem exec_nextId {collate : String → String} {i : ℕ} {c : Choice} {r : Reply ℕ} {s s' : Pipe}
    (h : Pipe.exec collate i .nextId c s = some (r, s')) :
    r = .thrown ∧ s' = s ∨ ∃ stamp : SnowflakeId.Stamp, stamp.id ∉ s.issued ∧ r = .ok stamp.id ∧
      s' = { s with issued := stamp.id :: s.issued } := by
  simp only [Pipe.exec] at h
  split at h
  · obtain ⟨rfl, rfl⟩ := Prod.ext_iff.1 (Option.some.inj h)
    exact .inl ⟨rfl, rfl⟩
  · next stamp _ =>
    split at h
    · cases h
    · next hfresh =>
      obtain ⟨rfl, rfl⟩ := Prod.ext_iff.1 (Option.some.inj h)
      exact .inr ⟨stamp, hfresh, rfl, rfl⟩

/-- The services and stores answer as they can. -/
theorem exec_answers {collate : String → String} {i : ℕ} {o : PipeOp} {c : Choice} {r : o.Res}
    {s s' : Pipe} (h : Pipe.exec collate i o c s = some (r, s')) : o.Answers r := by
  cases o with
  | nextId =>
    obtain ⟨rfl, -⟩ | ⟨stamp, -, rfl, -⟩ := exec_nextId h
    · exact trivial
    · exact ⟨stamp.id_pos, stamp.id_lt⟩
  | nextSessionSeq ssid =>
    change (if _ then some (0, s) else some (if _ then 0 else _, _)) = _ at h
    split at h
    · obtain ⟨rfl, -⟩ := Prod.ext_iff.1 (Option.some.inj h)
      exact Nat.two_pow_pos 64
    · next hlt =>
      obtain ⟨rfl, -⟩ := Prod.ext_iff.1 (Option.some.inj h)
      show (if c.fault = true then 0 else s.session_seq ssid + 1) < 2 ^ 64
      split <;> omega
  | _ => exact trivial

theorem Pipe.Counted.refl (s : Pipe) : s.Counted s := ⟨_, _, _, rfl⟩

/-- A call that only a request itself can see moves nothing but counters. -/
theorem exec_private {collate : String → String} {i : ℕ} {o : PipeOp} {c : Choice} {r : o.Res}
    {s s' : Pipe} (ho : o.Private) (h : Pipe.exec collate i o c s = some (r, s')) :
    s.Counted s' := by
  cases o with
  | allowUser | allowSession | resolveMembers | nowMs =>
    obtain ⟨-, rfl⟩ := Prod.ext_iff.1 (Option.some.inj h)
    exact .refl s
  | resolveUserInfo =>
    change (if _ then some (_, s) else _) = _ at h
    split at h <;> obtain ⟨-, rfl⟩ := Prod.ext_iff.1 (Option.some.inj h) <;> exact .refl s
  | nextSessionSeq =>
    change (if _ then some (_, s) else some (_, if _ then _ else s)) = _ at h
    split at h <;> obtain ⟨-, rfl⟩ := Prod.ext_iff.1 (Option.some.inj h)
    · exact .refl s
    · dsimp only
      split
      · exact ⟨_, _, _, rfl⟩
      · exact .refl s
  | nextUserSeqBatch =>
    obtain ⟨-, rfl⟩ := Prod.ext_iff.1 (Option.some.inj h)
    dsimp only
    split
    · exact ⟨_, _, _, rfl⟩
    · exact .refl s
  | nextId =>
    obtain ⟨-, rfl⟩ | ⟨stamp, -, -, rfl⟩ := exec_nextId h
    · exact .refl _
    · exact ⟨_, _, _, rfl⟩
  | _ => exact False.elim ho

section Calls

variable {collate : String → String} {i : ℕ} {o : PipeOp} {c : Choice} {r : o.Res} {s s' : Pipe}

theorem Choice.acts_of_not_fault (h : c.fault = false) : c.acts = true := by
  rw [acts, h]
  rfl

/-- A call that a request's phase allows is a move of the request. -/
theorem sendMove_of_exec {key : Option String} {uid : String} {req : SendMessageReq}
    {ph : SendPhase} (ha : (sendContract key uid req).allowed ph o)
    (hx : Pipe.exec collate i o c s = some (r, s')) :
    SendMove collate key uid req i o c ph s ((sendContract key uid req).next ph o r) s' := by
  cases o with
  | redisSetNx k v =>
    -- whether the key was free decides between taking it and being refused
    have hset : ∀ ph ph', key = some k ∧ v = SendMessage.pending →
        (ph = .start ∧ ph' = .refused ∨ ph = .cleared ∧ ph' = .turnedAway) →
        SendMove collate key uid req i (redisSetNx k v) c ph s
          (match r with | .ok true => .active true | .ok false => ph' | .thrown => .active false)
          s' := by
      rintro ph ph' ⟨hk, rfl⟩ hph
      have hopen : c.fault = true →
          SendMove collate key uid req i (redisSetNx k SendMessage.pending) c ph s (.active false)
            s :=
        fun hf ↦ .failOpen hk rfl hf (hph.imp And.left (.inr ·.1))
      simp only [Pipe.exec] at hx
      split at hx
      · obtain ⟨rfl, rfl⟩ := Prod.ext_iff.1 (Option.some.inj hx)
        cases hf : c.fault with
        | true => exact hopen hf
        | false => exact .refuse hk hph
      · next hfree =>
        obtain ⟨rfl, rfl⟩ := Prod.ext_iff.1 (Option.some.inj hx)
        have hfree : s.redis k = none := by simpa using hfree
        have hph := hph.imp And.left And.left
        cases hf : c.fault with
        | false =>
          rw [Choice.acts_of_not_fault hf]
          exact .take hk hph hfree
        | true =>
          cases c.acts with
          | false => exact hopen hf
          | true => exact .takeUnseen hk hf hph hfree
    cases ph with
    | start =>
      have := hset .start .refused ha (.inl ⟨rfl, rfl⟩)
      rcases r with ⟨_ | _⟩ | _ <;> exact this
    | cleared =>
      have := hset .cleared .turnedAway ha (.inr ⟨rfl, rfl⟩)
      rcases r with ⟨_ | _⟩ | _ <;> exact this
    | _ => exact False.elim ha
  | redisGet k =>
    cases ph with
    | refused =>
      simp only [Pipe.exec] at hx
      split at hx
      · next hf =>
        obtain ⟨rfl, rfl⟩ := Prod.ext_iff.1 (Option.some.inj hx)
        exact .failOpen ha rfl hf (.inr (.inl rfl))
      · obtain ⟨rfl, rfl⟩ := Prod.ext_iff.1 (Option.some.inj hx)
        exact .look ha
    | _ => exact False.elim ha
  | redisDel k =>
    obtain ⟨rfl, rfl⟩ := Prod.ext_iff.1 (Option.some.inj hx)
    cases ph with
    | sawCorrupt =>
      cases c.acts with
      | false => cases c.fault <;> exact .clearFault ha
      | true => cases c.fault <;> exact .clear ha
    | active own =>
      obtain ⟨rfl, hk⟩ := ha
      cases hf : c.fault with
      | false =>
        rw [Choice.acts_of_not_fault hf]
        exact .giveUp hk
      | true =>
        cases c.acts with
        | false => exact .quiet (.refl s)
        | true => exact .giveUpUnseen hk hf
    | failing own msg =>
      cases hf : c.fault with
      | false =>
        rw [Choice.acts_of_not_fault hf]
        exact .fail ha
      | true =>
        cases c.acts with
        | false => exact .quiet (.refl s)
        | true => exact .failUnseen ha hf
    | _ => exact False.elim ha
  | redisSet k v =>
    cases ph with
    | acked own msg =>
      obtain ⟨hk, rfl⟩ := ha
      obtain ⟨rfl, rfl⟩ := Prod.ext_iff.1 (Option.some.inj hx)
      cases c.acts with
      | false => exact .quiet (.refl s)
      | true => exact .accept hk
    | _ => exact False.elim ha
  | selectByClientMsg u cm =>
    simp only [Pipe.exec] at hx
    cases ph with
    | sawId | sawPending =>
      obtain ⟨rfl, rfl⟩ := ha
      split at hx
      · obtain ⟨rfl, rfl⟩ := Prod.ext_iff.1 (Option.some.inj hx)
        exact .quiet (.refl s)
      · obtain ⟨rfl, rfl⟩ := Prod.ext_iff.1 (Option.some.inj hx)
        cases hrow : select_by_client_msg collate s.rows u req.client_msg_id with
        | none => exact .quiet (.refl s)
        | some row => exact .find (by simp) hrow
    | _ => exact False.elim ha
  | publishConfirm msg =>
    cases ph with
    | active own =>
      simp only [Pipe.exec] at hx
      split at hx <;> obtain ⟨rfl, rfl⟩ := Prod.ext_iff.1 (Option.some.inj hx)
      · exact .publishThrow ha
      · exact .publish ha
    | _ => exact False.elim ha
  | awaitConfirm =>
    cases ph with
    | inflight own msg =>
      simp only [Pipe.exec] at hx
      split at hx
      · cases hx
      · next hrec =>
        obtain ⟨rfl, rfl⟩ := Prod.ext_iff.1 (Option.some.inj hx)
        cases hst : c.confirm with
        | Acked =>
          obtain ⟨e, he, hi, hr⟩ : ∃ e ∈ s.wire, e.tid = i ∧ e.received = true := by
            simpa [hst] using hrec
          exact .ack he hi hr
        | _ => exact .nack (by simp)
    | _ => exact False.elim ha
  | reply rsp =>
    obtain ⟨-, rfl⟩ := Prod.ext_iff.1 (Option.some.inj hx)
    cases ph <;> exact .reply ha
  | allowUser | allowSession | resolveUserInfo | resolveMembers | nextSessionSeq
  | nextUserSeqBatch | nextId | nowMs =>
    have hs := exec_private (by trivial) hx
    cases ph with
    | active own => exact .quiet hs
    | _ => exact False.elim ha
  | _ => cases ph <;> exact False.elim ha

/-- A call that a delivery's phase allows is a move of the delivery. -/
theorem consumeMove_of_exec {cfg : MessageConfig} {d : Delivery} {ph : ConsumePhase}
    (ha : (consumeContract cfg d.msg d.redelivered).allowed ph o)
    (hx : Pipe.exec collate i o c s = some (r, s')) :
    ConsumeMove collate cfg d i o c ph s ((consumeContract cfg d.msg d.redelivered).next ph o r)
      s' := by
  cases o with
  | insertMessage row timeline =>
    cases ph with
    | fresh =>
      obtain ⟨rfl, e, he, rfl⟩ := ha
      simp only [Pipe.exec] at hx
      split at hx
      · obtain ⟨rfl, rfl⟩ := Prod.ext_iff.1 (Option.some.inj hx)
        cases c.fault <;> exact .quiet (by simp [consumeContract]) (by simp)
      · next hfree =>
        obtain ⟨rfl, rfl⟩ := Prod.ext_iff.1 (Option.some.inj hx)
        cases hf : c.fault with
        | false =>
          rw [Choice.acts_of_not_fault hf]
          exact .commit he (.inl ⟨hf, rfl⟩) hfree
        | true =>
          have hacts : c.acts = c.late := by
            rw [Choice.acts, hf]
            rfl
          rw [hacts]
          cases hl : c.late with
          | false => exact .quiet (by simp [consumeContract]) (by simp)
          | true => exact .commit he (.inr ⟨hf, hl, rfl⟩) hfree
    | _ => exact False.elim ha
  | redisSet k v =>
    cases ph with
    | committed =>
      obtain ⟨rfl, rfl, hc, hid⟩ := ha
      obtain ⟨rfl, rfl⟩ := Prod.ext_iff.1 (Option.some.inj hx)
      cases c.acts with
      | false => cases c.fault <;> exact .quiet id (by simp [consumeContract])
      | true => cases c.fault <;> exact .mark hc hid
    | _ => exact False.elim ha
  | pushPublish payload =>
    cases ph with
    | committed =>
      obtain rfl : payload = d.msg := ha
      simp only [Pipe.exec] at hx
      split at hx <;> obtain ⟨rfl, rfl⟩ := Prod.ext_iff.1 (Option.some.inj hx)
      · exact .quiet (by simp) (by simp [consumeContract])
      · exact .post
    | _ => exact False.elim ha
  | pushEnqueue payload =>
    obtain ⟨-, rfl⟩ := Prod.ext_iff.1 (Option.some.inj hx)
    cases ph with
    | committed | pushThrew =>
      obtain rfl : payload = d.msg := ha
      exact .enqueue (by simp)
    | _ => exact False.elim ha
  | esPublish event =>
    have hs : s' = s := by
      simp only [Pipe.exec] at hx
      split at hx <;> exact (Prod.ext_iff.1 (Option.some.inj hx)).2.symm
    obtain rfl := hs
    cases ph <;> first | exact False.elim ha | exact .quiet id (by simp [consumeContract])
  | esEnqueue event =>
    obtain ⟨-, rfl⟩ := Prod.ext_iff.1 (Option.some.inj hx)
    cases ph <;> first | exact False.elim ha | exact .quiet id (by simp [consumeContract])
  | selectById mid =>
    have hs : s' = s := by
      simp only [Pipe.exec] at hx
      split at hx <;> exact (Prod.ext_iff.1 (Option.some.inj hx)).2.symm
    obtain rfl := hs
    cases ph with
    | conflict => cases r <;> exact .quiet (by simp [consumeContract]) (by simp)
    | _ => exact False.elim ha
  | settle action =>
    obtain ⟨-, rfl⟩ := Prod.ext_iff.1 (Option.some.inj hx)
    cases ph with
    | committed | pushThrew => exact .settle fun _ ↦ ha.2
    | fresh | refused | posted | enqueued | duplicate | failed => exact .settle (by simp)
    | _ => exact False.elim ha
  | _ => cases ph <;> exact False.elim ha

/-- A call that a sync call's phase allows is a move of the sync call. -/
theorem syncMove_of_exec {client : ℕ} {cid : String} {after_seq : UInt64} {ph : SyncPhase}
    (ha : (syncContract client cid after_seq).allowed ph o)
    (hx : Pipe.exec collate i o c s = some (r, s')) :
    SyncMove client cid after_seq o c ph s ((syncContract client cid after_seq).next ph o r)
      s' := by
  cases o with
  | requireMember =>
    obtain ⟨-, rfl⟩ := Prod.ext_iff.1 (Option.some.inj hx)
    cases ph <;> exact .quiet
  | selectAfter c' a limit =>
    cases ph with
    | asking =>
      obtain ⟨rfl, rfl⟩ := ha
      obtain ⟨rfl, rfl⟩ := Prod.ext_iff.1 (Option.some.inj hx)
      exact .read ((SyncMessages.page_isPrefix _ _).trans (List.take_prefix _ _))
    | _ => exact False.elim ha
  | selectMaxSeq c' =>
    have hs : s' = s := by
      change (if c.fault then some (0, s) else _) = _ at hx
      split at hx <;> exact (Prod.ext_iff.1 (Option.some.inj hx)).2.symm
    obtain rfl := hs
    cases ph <;> first | exact False.elim ha | exact .quiet
  | syncReply n c' rsp =>
    obtain ⟨-, rfl⟩ := Prod.ext_iff.1 (Option.some.inj hx)
    cases ph with
    | asking =>
      obtain ⟨rfl, rfl, hrsp⟩ := ha
      exact .deliver (.inr ⟨rfl, rfl⟩) hrsp
    | read page =>
      obtain ⟨rfl, rfl, hrsp⟩ := ha
      exact .deliver (.inl rfl) hrsp
    | answered => exact False.elim ha
  | _ => cases ph <;> exact False.elim ha

end Calls

/-- A call that the contract of a thread allows is a move of the pipeline. -/
theorem move_of_exec {cfg : PipeConfig} {G : PipeGuard} {ts : List Thread} {i : ℕ} {t : Thread}
    {o : PipeOp} {c : Choice} {r : o.Res} {s s' : Pipe} (hi : ts[i]? = some t)
    (ha : (pipeContract cfg).allowed t o) (hG : G.onOp i o c s)
    (hx : Pipe.exec cfg.collate i o c s = some (r, s')) :
    Move cfg G ts s (ts.set i ((pipeContract cfg).next t o r)) s' := by
  cases t with
  | send uid req ph => exact .send hi hG (sendMove_of_exec ha hx)
  | consume d ph => exact .consume hi hG (consumeMove_of_exec ha hx)
  | sync client cid after_seq ph => exact .sync hi hG (syncMove_of_exec ha hx)
  | dead => exact False.elim ha

section Spawns

variable (cfg : PipeConfig)

theorem send_meets (uid : String) (req : SendMessageReq) :
    (SendMessage cfg.transmite (.ok uid) req).Meets (pipeContract cfg)
      (.send uid req (sendStart cfg.transmite req.client_msg_id)) fun t _ ↦ t.Done := by
  refine ((sendMessage_meets cfg.transmite uid req).map (D := pipeContract cfg)
    (.send uid req) (fun _ _ h ↦ h) (fun _ _ _ h ↦ h) fun _ _ _ ↦ rfl).mono ?_
  rintro _ _ ⟨ph, rfl, -⟩
  exact trivial

theorem deliver_meets (d : Delivery) :
    (consume cfg.message d.msg d.redelivered).Meets (pipeContract cfg) (.consume d .fresh)
      fun t _ ↦ t.Done := by
  refine ((consume_meets cfg.message d.msg d.redelivered).map (D := pipeContract cfg)
    (.consume d) (fun _ _ h ↦ h) (fun _ _ _ _ ↦ trivial) fun _ _ _ ↦ rfl).mono ?_
  rintro _ _ ⟨ph, rfl, hph⟩
  exact hph

theorem sync_meets (client : ℕ) (rid uid cid : String) (after_seq : UInt64) (limit : Int32) :
    (sync_call client rid uid cid after_seq limit).Meets (pipeContract cfg)
      (.sync client cid after_seq .asking) fun t _ ↦ t.Done := by
  refine ((sync_call_meets client rid uid cid after_seq limit).map (D := pipeContract cfg)
    (.sync client cid after_seq) (fun _ _ h ↦ h) (fun _ _ _ _ ↦ trivial) fun _ _ _ ↦ rfl).mono ?_
  rintro _ _ ⟨ph, rfl, -⟩
  exact trivial

end Spawns

/-- An event is a move of the pipeline, and every thread it starts meets its contract. -/
theorem move_of_env {cfg : PipeConfig} {e : PipeEv} {ts : List Thread} {p p' : PipePool}
    (hm : p.Meets (pipeContract cfg) Thread.Done ts) (hx : Pipe.env cfg e p = some p') :
    ∃ ts', EventMove cfg e ts p.shared ts' p'.shared ∧
      p'.Meets (pipeContract cfg) Thread.Done ts' := by
  cases e with
  | request uid req =>
    obtain rfl := Option.some.inj hx
    refine ⟨_, ?_, hm.spawn (send_meets cfg uid req) _⟩
    show EventMove cfg _ ts p.shared _ { p.shared with requests := _ ++ [(p.threads.length, _)] }
    rw [hm.length_eq]
    exact .request uid req
  | receive n =>
    simp only [Pipe.env] at hx
    split at hx
    · next e hn =>
      split at hx
      · next he =>
        obtain rfl := Option.some.inj hx
        exact ⟨ts, .receive hn he.2, hm⟩
      · cases hx
    · cases hx
  | deliver n =>
    simp only [Pipe.env] at hx
    split at hx
    · next d hn =>
      obtain rfl := Option.some.inj hx
      refine ⟨_, ?_, hm.spawn (deliver_meets cfg d) _⟩
      rw [hm.length_eq]
      exact .deliver hn
    · cases hx
  | lose i =>
    obtain rfl := Option.some.inj hx
    exact ⟨ts, .lose i, hm⟩
  | crash i =>
    simp only [Pipe.env] at hx
    split at hx
    · next hi =>
      obtain rfl := Option.some.inj hx
      exact ⟨_, .crash hi, hm.set i (q := .ret ()) (t := .dead) trivial _⟩
    · cases hx
  | pushAccept n =>
    simp only [Pipe.env] at hx
    split at hx
    · next e hn =>
      split at hx
      · cases hx
      · obtain rfl := Option.some.inj hx
        exact ⟨ts, .pushAccept hn, hm⟩
    · cases hx
  | pushConfirm n st =>
    simp only [Pipe.env] at hx
    split at hx
    · next e hn =>
      split at hx
      · next hst =>
        obtain rfl := hst
        split at hx
        · next hacc =>
          obtain rfl := Option.some.inj hx
          exact ⟨ts, .pushAcked hn hacc, hm⟩
        · cases hx
      · next hst =>
        obtain rfl := Option.some.inj hx
        exact ⟨ts, .pushFailed hn hst, hm⟩
    · cases hx
  | sync client rid uid cid limit =>
    obtain rfl := Option.some.inj hx
    exact ⟨_, .sync client rid uid cid limit,
      hm.spawn (sync_meets cfg client rid uid cid _ limit) _⟩
  | recallMessage mid =>
    obtain rfl := Option.some.inj hx
    exact ⟨ts, .update (rowUpdate_recalled mid), hm⟩
  | deleteMessage mid =>
    obtain rfl := Option.some.inj hx
    exact ⟨ts, .update (rowUpdate_deleted mid), hm⟩

/-- **The rule for the pipeline.** What holds at the start and survives every move holds in every
reachable state, and every thread follows its contract there. -/
theorem pipeline_invariant {cfg : PipeConfig} {G : PipeGuard} {Inv : List Thread → Pipe → Prop}
    {p : PipePool} (hr : (pipeline cfg).Reach G Pipe.init p) (h₀ : Inv [] {})
    (hstep : ∀ {ts s ts' s'}, Inv ts s → Move cfg G ts s ts' s' → Inv ts' s') :
    ∃ ts, Inv ts p.shared ∧ p.Meets (pipeContract cfg) Thread.Done ts := by
  refine Machine.invariant hr ⟨[], h₀, .nil⟩ ?_ ?_
  · intro ts s i t o c r s' hinv hi ha hG hx
    exact ⟨exec_answers hx, hstep hinv (move_of_exec hi ha hG hx)⟩
  · intro ts p e p' hinv hm hG hx
    obtain ⟨ts', hmove, hm'⟩ := move_of_env hm hx
    exact ⟨ts', hstep hinv (.event hG rfl hmove), hm'⟩

end ChatNow
