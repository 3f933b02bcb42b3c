import ChatNow.Lib.Pool
import ChatNow.Message.ConsumeContract
import ChatNow.Message.SyncMessages
import ChatNow.Transmite.SendContract
import Mathlib.Data.List.Sort
import Mathlib.Logic.Function.Basic

/-!
# The message pipeline as one machine

Everything between a SendMessage request and a client's inbox, as a `Machine` over `PipeOp`: Redis,
the broker with its message exchange, the message table, the push exchange with its outbox.
Requests, deliveries and sync calls are threads of the pool; what the environment does — a request
arrives, the broker receives a publish or delivers a message, a consumer loses its connection or
crashes, a confirm callback fires — is an event.

* A publish **posted** to the broker may be received at any later time or never, and its callback
  may be told anything, as long as `Acked` is only told of a publish that was received.
* A delivery is *unacked* from the moment it is handed out until its handler settles it. Losing the
  connection or crashing puts it back into the queue, marked as redelivered; a handler that lost its
  connection runs on, and settling has no effect any more.
* The message table has the three unique indexes of `odb/message.hxx`; the timeline has none. The
  database compares texts by its collation (`PipeConfig.collate`).
* A command or a transaction that fails may have taken effect all the same (`Choice.late`), when
  only its answer was lost.
* The push publish of a delivery is *pending* until its callback fires; the callback of a crashed
  handler never does.

Fields of the state that no handler reads record what happened: what was requested, answered,
committed, read and settled, who was given which delivery, and who wrote what is under a key. The
properties are stated over them.
-/

namespace ChatNow

open Prog PipeOp

/-! ### The state -/

/-- A publish on the message exchange. -/
structure Posted where
  /-- The thread that published. -/
  tid : ℕ
  msg : InternalMessage
  /-- The call did not throw. -/
  sent : Bool
  /-- The broker has the message. -/
  received : Bool := false
  /-- What the request was told: by the callback, or by the exception. -/
  reported : Option PublishStatus := none
  /-- The request has deleted its idempotency key since. -/
  released : Bool := false

/-- A message on its way to a consumer. -/
structure Delivery where
  msg : InternalMessage
  redelivered : Bool

/-- A publish on the push exchange whose callback has not fired. -/
structure PushPending where
  tid : ℕ
  payload : InternalMessage
  accepted : Bool := false

/-- The stores, the broker, and what happened. -/
structure Pipe where
  redis : String → Option String := fun _ ↦ none
  session_seq : String → ℕ := fun _ ↦ 0
  user_seq : String → ℕ := fun _ ↦ 0
  issued : List ℕ := []
  wire : List Posted := []
  queue : List Delivery := []
  unacked : List (ℕ × Delivery) := []
  rows : List MessageRow := []
  timeline : List UserTimeline := []
  push_pending : List PushPending := []
  push_exchange : List InternalMessage := []
  push_outbox : List InternalMessage := []
  inbox : ℕ → String → List Message := fun _ _ ↦ []
  /-- The thread that has written what is under a key. -/
  writer : String → Option ℕ := fun _ ↦ none
  /-- Every request, with its thread. -/
  requests : List (ℕ × String × SendMessageReq) := []
  /-- Every response to a SendMessage request. -/
  replies : List (ℕ × SendMessageRsp) := []
  /-- Every delivery, with its thread. -/
  deliveries : List (ℕ × Delivery) := []
  /-- Every committed row, with the thread that committed it. -/
  committed : List (ℕ × MessageRow) := []
  /-- Every settled delivery, with its thread. -/
  settled : List (ℕ × Delivery × ConsumeAction) := []
  /-- Every page read by a sync call, without the row that was read ahead. -/
  pages : List (String × List MessageRow) := []

/-- What the environment decides at a call. -/
structure Choice where
  /-- The call throws, or the store behind it fails. -/
  fault : Bool := false
  /-- Its effect takes place all the same. -/
  late : Bool := false
  /-- A limiter, a profile lookup or a membership check lets the call pass. -/
  allow : Bool := true
  /-- What `resolve_members` yields. -/
  members : Reply MembersResult := .thrown
  /-- What the next id is composed from. -/
  stamp : Option SnowflakeId.Stamp := none
  /-- The clock. -/
  now : Int64 := 0
  /-- What a confirm callback is told. -/
  confirm : PublishStatus := .Acked
  /-- How many rows of a query arrive before it fails. -/
  take : Option ℕ := none

/-- The call takes effect. -/
def Choice.acts (c : Choice) : Bool := !c.fault || c.late

/-- The two services, and the database. -/
structure PipeConfig where
  transmite : TransmiteConfig := {}
  message : MessageConfig := {}
  /-- To the database, two texts are one when these are. -/
  collate : String → String := id

/-! ### The message table -/

/-- A unique index of the message table refuses the row. -/
def conflicts (collate : String → String) (rows : List MessageRow) (row : MessageRow) : Prop :=
  ∃ r ∈ rows, r.message_id = row.message_id ∨
    collate r.session_id = collate row.session_id ∧ r.seq_id = row.seq_id ∨
    collate r.user_id = collate row.user_id ∧
      r.client_msg_id.map collate = row.client_msg_id.map collate ∧ row.client_msg_id ≠ none

instance (collate : String → String) (rows : List MessageRow) (row : MessageRow) :
    Decidable (conflicts collate rows row) :=
  inferInstanceAs (Decidable (∃ r ∈ rows, _))

/-- `select_after`. -/
def select_after (rows : List MessageRow) (cid : String) (after_seq : UInt64) (limit : ℕ) :
    List MessageRow :=
  ((rows.filter fun r ↦
    r.session_id = cid ∧ after_seq < r.seq_id ∧ r.status ≠ .DELETED).insertionSort
      fun a b ↦ a.seq_id ≤ b.seq_id).take limit

/-- `select_by_client_msg`. -/
def select_by_client_msg (collate : String → String) (rows : List MessageRow)
    (uid client_msg_id : String) : Option MessageRow :=
  if client_msg_id = "" then none
  else rows.find? fun r ↦ collate r.user_id = collate uid ∧
    r.client_msg_id.map collate = some (collate client_msg_id)

/-- `select_max_seq_by_conversation`. -/
def select_max_seq (rows : List MessageRow) (cid : String) : UInt64 :=
  ((rows.filter fun r ↦ r.session_id = cid).map (·.seq_id)).foldl max 0

/-- `update_status_to_recalled`: only a normal message is recalled, and loses its text. -/
def update_status_to_recalled (mid : UInt64) (row : MessageRow) : MessageRow :=
  if row.message_id = mid ∧ row.status = .NORMAL then { row with status := .REVOKED, content := "" }
  else row

/-- `mark_deleted`. -/
def mark_deleted (mid : UInt64) (row : MessageRow) : MessageRow :=
  if row.message_id = mid then { row with status := .DELETED } else row

/-! ### The broker -/

/-- The publish of a thread is told its fate. -/
def Pipe.report (s : Pipe) (i : ℕ) (st : PublishStatus) : Pipe :=
  { s with wire := s.wire.map fun e ↦ if e.tid = i then { e with reported := some st } else e }

/-- The thread has deleted its key. -/
def Pipe.release (s : Pipe) (i : ℕ) : Pipe :=
  { s with wire := s.wire.map fun e ↦ if e.tid = i then { e with released := true } else e }

/-- The unacked delivery of a thread goes back to the queue. -/
def Pipe.requeue (s : Pipe) (i : ℕ) : Pipe :=
  { s with
    queue := s.queue ++ (s.unacked.filter fun u ↦ u.1 = i).map fun u ↦ ⟨u.2.msg, true⟩
    unacked := s.unacked.filter fun u ↦ u.1 ≠ i }

/-- The broker is told about the delivery of a thread, if it still waits for that. -/
def Pipe.settle (s : Pipe) (i : ℕ) (action : ConsumeAction) : Pipe :=
  let told := (s.unacked.filter fun u ↦ u.1 = i).map fun u ↦ (i, u.2, action)
  let s' := { s with settled := s.settled ++ told }
  match action with
  | .NackRequeue => s'.requeue i
  | _ => { s' with unacked := s'.unacked.filter fun u ↦ u.1 ≠ i }

/-! ### The stores -/

/-- The thread gives a key a value, or takes it away. -/
def Pipe.setKey (s : Pipe) (i : ℕ) (k : String) (v : Option String) : Pipe :=
  { s with redis := Function.update s.redis k v
           writer := Function.update s.writer k (v.map fun _ ↦ i) }

/-- The transaction of a delivery is committed. -/
def Pipe.commit (s : Pipe) (i : ℕ) (row : MessageRow) (timeline : List UserTimeline) : Pipe :=
  { s with rows := s.rows ++ [row]
           timeline := s.timeline ++ timeline
           committed := s.committed ++ [(i, row)] }

/-! ### The operations -/

/-- The next numbers of some users' counters, one after the other. -/
def next_user_seqs : List String → (String → ℕ) → List ℕ × (String → ℕ)
  | [], seq => ([], seq)
  | uid :: uids, seq =>
    let (ns, seq') := next_user_seqs uids (Function.update seq uid (seq uid + 1))
    ((seq uid + 1) :: ns, seq')

/-- The effect of a call by thread `i`. -/
def Pipe.exec (collate : String → String) (i : ℕ) :
    (o : PipeOp) → Choice → Pipe → Option (o.Res × Pipe)
  | redisSetNx k v, c, s =>
    if (s.redis k).isSome then some (if c.fault then .thrown else .ok false, s)
    else some (if c.fault then .thrown else .ok true,
      if c.acts then s.setKey i k (some v) else s)
  | redisGet k, c, s => if c.fault then some (.thrown, s) else some (.ok (s.redis k), s)
  | redisDel k, c, s =>
    some (if c.fault then .thrown else .ok (),
      if c.acts then (s.release i).setKey i k none else s)
  | redisSet k v, c, s =>
    some (if c.fault then .thrown else .ok (), if c.acts then s.setKey i k (some v) else s)
  | selectByClientMsg uid client_msg_id, c, s =>
    if c.fault then some (none, s)
    else some ((select_by_client_msg collate s.rows uid client_msg_id).map
      convert_db_message_to_proto_, s)
  | allowUser _, c, s => some (c.allow, s)
  | allowSession _, c, s => some (c.allow, s)
  | resolveUserInfo _, c, s => if c.fault then some (.thrown, s) else some (.ok c.allow, s)
  | resolveMembers _, c, s => some (c.members, s)
  | nextSessionSeq ssid, c, s =>
    -- `INCR` fails past the range of a signed 64-bit number
    if 2 ^ 63 ≤ s.session_seq ssid + 1 then some ((0 : ℕ), s)
    else some (if c.fault then (0 : ℕ) else s.session_seq ssid + 1,
      if c.acts then
        { s with session_seq := Function.update s.session_seq ssid (s.session_seq ssid + 1) }
      else s)
  | nextUserSeqBatch uids, c, s =>
    some (if c.fault then [] else (next_user_seqs uids s.user_seq).1,
      if c.acts then { s with user_seq := (next_user_seqs uids s.user_seq).2 } else s)
  | nextId, c, s =>
    match c.stamp with
    | none => some (.thrown, s)
    | some stamp =>
      -- no id is given out twice
      if stamp.id ∈ s.issued then none
      else some (.ok stamp.id, { s with issued := stamp.id :: s.issued })
  | nowMs, c, s => some (c.now, s)
  | publishConfirm msg, c, s =>
    if c.fault then
      some (.thrown, { s with wire := s.wire ++ [{ tid := i, msg := msg, sent := false,
                                                   reported := some .Error }] })
    else some (.ok (), { s with wire := s.wire ++ [{ tid := i, msg := msg, sent := true }] })
  | awaitConfirm, c, s =>
    -- only a publish that the broker has can be acked
    if c.confirm = .Acked ∧ ∀ e ∈ s.wire, e.tid = i → e.received = false then none
    else some (c.confirm, s.report i c.confirm)
  | reply rsp, _, s => some ((), { s with replies := s.replies ++ [(i, rsp)] })
  | insertMessage row timeline, c, s =>
    if conflicts collate s.rows row then
      some (if c.fault then .failed else .alreadyPersistent, s)
    else some (if c.fault then .failed else .inserted,
      if c.acts then s.commit i row timeline else s)
  | selectById mid, c, s =>
    if c.fault then some (false, s) else some (decide (∃ r ∈ s.rows, r.message_id = mid), s)
  | pushPublish payload, c, s =>
    if c.fault then some (.thrown, s)
    else
      some (.ok (), { s with push_pending := s.push_pending ++ [{ tid := i, payload := payload }] })
  | pushEnqueue payload, _, s => some ((), { s with push_outbox := s.push_outbox ++ [payload] })
  | esPublish _, c, s => if c.fault then some (.thrown, s) else some (.ok (), s)
  | esEnqueue _, _, s => some ((), s)
  | .settle action, _, s => some ((), s.settle i action)
  | requireMember _ _, c, s => some (c.allow, s)
  | selectAfter cid after_seq limit, c, s =>
    let rows := (select_after s.rows cid after_seq limit).take (c.take.getD limit)
    some (rows, { s with pages := s.pages ++ [(cid, (SyncMessages.page (limit - 1) rows).1)] })
  | selectMaxSeq cid, c, s =>
    if c.fault then some ((0 : UInt64), s) else some (select_max_seq s.rows cid, s)
  | syncReply client cid rsp, _, s =>
    let msgs := s.inbox client cid ++ rsp.messages
    some ((), { s with inbox := Function.update s.inbox client (Function.update (s.inbox client) cid
      msgs) })

/-! ### The events -/

/-- What happens around the handlers. -/
inductive PipeEv
  /-- A request of an authenticated user arrives. -/
  | request (uid : String) (req : SendMessageReq)
  /-- The broker receives the `n`-th publish. -/
  | receive (n : ℕ)
  /-- The broker hands the `n`-th message of the queue to a consumer. -/
  | deliver (n : ℕ)
  /-- The handler of thread `i` loses its connection to the broker, and runs on. -/
  | lose (i : ℕ)
  /-- The process of the handler of thread `i` crashes. -/
  | crash (i : ℕ)
  /-- The broker accepts the `n`-th pending push publish. -/
  | pushAccept (n : ℕ)
  /-- The callback of the `n`-th pending push publish fires. -/
  | pushConfirm (n : ℕ) (st : PublishStatus)
  /-- A client asks for what comes after the greatest sequence number it has received. -/
  | sync (client : ℕ) (rid uid cid : String) (limit : Int32)
  /-- A message is recalled. -/
  | recallMessage (mid : UInt64)
  /-- A message is deleted. -/
  | deleteMessage (mid : UInt64)

/-- The greatest sequence number among some messages, zero when there is none. -/
def cursor (msgs : List Message) : UInt64 := (msgs.map (·.seq_id)).foldl max 0

/-- The threads, the stores and the broker. -/
abbrev PipePool := Pool PipeOp PipeOp.Res Pipe

/-- The effect of an event. -/
def Pipe.env (cfg : PipeConfig) : PipeEv → PipePool → Option PipePool
  | .request uid req, p =>
    some ⟨p.threads ++ [SendMessage cfg.transmite (.ok uid) req],
      { p.shared with requests := p.shared.requests ++ [(p.threads.length, uid, req)] }⟩
  | .receive n, p =>
    match p.shared.wire[n]? with
    | some e =>
      if e.sent ∧ e.received = false then
        some { p with shared := { p.shared with
          wire := p.shared.wire.set n { e with received := true }
          queue := p.shared.queue ++ [⟨e.msg, false⟩] } }
      else none
    | none => none
  | .deliver n, p =>
    match p.shared.queue[n]? with
    | some d =>
      some ⟨p.threads ++ [consume cfg.message d.msg d.redelivered],
        { p.shared with
          queue := p.shared.queue.eraseIdx n
          unacked := p.shared.unacked ++ [(p.threads.length, d)]
          deliveries := p.shared.deliveries ++ [(p.threads.length, d)] }⟩
    | none => none
  | .lose i, p => some { p with shared := p.shared.requeue i }
  | .crash i, p =>
    if i ∈ p.shared.deliveries.map (·.1) then
      some ⟨p.threads.set i (.ret ()),
        { p.shared.requeue i with
          push_pending := p.shared.push_pending.filter fun e ↦ e.tid ≠ i }⟩
    else none
  | .pushAccept n, p =>
    match p.shared.push_pending[n]? with
    | some e =>
      if e.accepted then none
      else some { p with shared := { p.shared with
        push_pending := p.shared.push_pending.set n { e with accepted := true }
        push_exchange := p.shared.push_exchange ++ [e.payload] } }
    | none => none
  | .pushConfirm n st, p =>
    match p.shared.push_pending[n]? with
    | some e =>
      if st = .Acked then
        if e.accepted then
          some { p with
            shared := { p.shared with push_pending := p.shared.push_pending.eraseIdx n } }
        else none
      else
        some { p with shared := { p.shared with
          push_pending := p.shared.push_pending.eraseIdx n
          push_outbox :=
            if cfg.message.push_outbox then p.shared.push_outbox ++ [e.payload]
            else p.shared.push_outbox } }
    | none => none
  | .sync client rid uid cid limit, p =>
    some ⟨p.threads ++ [sync_call client rid uid cid (cursor (p.shared.inbox client cid)) limit],
      p.shared⟩
  | .recallMessage mid, p =>
    some { p with shared := { p.shared with
      rows := p.shared.rows.map (update_status_to_recalled mid) } }
  | .deleteMessage mid, p =>
    some { p with shared := { p.shared with rows := p.shared.rows.map (mark_deleted mid) } }

/-- The pipeline. -/
def pipeline (cfg : PipeConfig) : Machine PipeOp PipeOp.Res Pipe Choice PipeEv where
  exec := Pipe.exec cfg.collate
  env := Pipe.env cfg

/-- Nothing has happened yet. -/
def Pipe.init : PipePool := ⟨[], {}⟩

/-! ### Concrete runs -/

/-- A step of a concrete run. -/
abbrev PipeLabel := Machine.Label Choice PipeEv

/-- A call at which nothing fails, in a conversation of alice and bob: the `n`-th id of the first
millisecond is given out, and a confirm callback is told `st`. -/
def smooth (n : ℕ) (st : PublishStatus := .Acked) : Choice :=
  { members := .ok { members := ["alice", "bob"] }
    stamp := if hn : n ≤ SnowflakeId.kMaxSequence then
      some ⟨SnowflakeId.epoch_ms + 1, 0, n, by decide, by decide, by decide, hn⟩ else none
    confirm := st }

/-- A request to send a text. -/
def textTo (cid client_msg_id : String) : SendMessageReq :=
  { conversation_id := cid
    content := { type := .TEXT, body := some (.text { text := "hi" }) }
    client_msg_id := client_msg_id }

end ChatNow
