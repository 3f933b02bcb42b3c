import ChatNow.Transmite.SendMessage

/-!
# What a SendMessage request does to the shared stores

The automaton that a SendMessage request follows, whatever the other services answer. Its state
(`SendPhase`) says what the request knows and holds: whether it has taken the idempotency key, what
it read there, what it has published and what the confirm callback was told. The contract
(`sendContract`) then says, state by state, which of the calls that others can observe are made:

* the key is written `pending` only by `SET NX`, and `accepted` only after the broker's ack;
* the key is deleted only by a request that took it and gives up (`active`), by one whose publish
  failed (`failing`), or over a value that does not parse (`sawCorrupt`);
* a publish carries the caller's own id, the request's `client_msg_id` and a non-zero message id;
* a success response carries an id the request can vouch for: its own after the ack, the one it read
  under the key, or the one the message table returned.

`sendMessage_meets` is the simulation: the handler follows the automaton, on every path. The proofs
about runs of the whole pipeline use the automaton and never look at the handler again.
-/

namespace ChatNow

open Prog PipeOp

/-- Where a SendMessage request stands. -/
inductive SendPhase
  /-- Before the gate. -/
  | start
  /-- `SET NX` found the key taken. -/
  | refused
  /-- The key holds an accepted or persisted id. -/
  | sawId (id : ℕ)
  /-- The key holds `pending`, or was gone when it was read. -/
  | sawPending
  /-- The key holds a value that does not parse. -/
  | sawCorrupt
  /-- The unparsable value has been deleted. -/
  | cleared
  /-- The second `SET NX` found the key taken. -/
  | turnedAway
  /-- The message table has a message for this `client_msg_id`. -/
  | found (msg : Message)
  /-- Past the gate, having taken the key or not. -/
  | active (own : Bool)
  /-- Published, the callback outstanding. -/
  | inflight (own : Bool) (msg : InternalMessage)
  /-- The callback was told `Acked`. -/
  | acked (own : Bool) (msg : InternalMessage)
  /-- The publish threw, or the callback was told something else. -/
  | failing (own : Bool) (msg : InternalMessage)
  /-- A failed publish whose request has deleted the key. -/
  | failed (own : Bool) (msg : InternalMessage)
  /-- The request gave up before publishing and deleted the key. -/
  | released

namespace SendPhase

/-- The ids that a success response may carry. -/
def Vouches : SendPhase → Int64 → Prop
  | sawId id, m => m = (UInt64.ofNat id).toInt64
  | found msg, m => m = msg.message_id
  | acked _ msg, m => m = msg.message.message_id
  | _, _ => False

/-- What a state found under the key tells. -/
def ofState : IdempotencyState → SendPhase
  | ⟨.Accepted, id⟩ => sawId id
  | ⟨.Persisted, id⟩ => sawId id
  | ⟨.Corrupt, _⟩ => sawCorrupt
  | ⟨.Empty, _⟩ => sawPending
  | ⟨.Pending, _⟩ => sawPending

/-- What reading the key tells. -/
def ofCached (cached : Option String) : SendPhase :=
  ofState (SendMessage.cached_state cached)

end SendPhase

/-- The calls that only the request itself can see. -/
def PipeOp.Private : PipeOp → Prop
  | allowUser _ => True
  | allowSession _ => True
  | resolveUserInfo _ => True
  | resolveMembers _ => True
  | nextSessionSeq _ => True
  | nextUserSeqBatch _ => True
  | nextId => True
  | nowMs => True
  | _ => False

/-- The answers that the services and stores can give: an id is a positive 64-bit number, a
sequence number a 64-bit one. -/
def PipeOp.Answers (o : PipeOp) (r : o.Res) : Prop :=
  match o, r with
  | nextId, .ok id => 0 < id ∧ id < 2 ^ 64
  | nextSessionSeq _, seq => seq < 2 ^ 64
  | _, _ => True

/-- The value under the key of a message that the broker has. -/
def acceptedValue (msg : Message) : String :=
  serialize_idempotency_state ⟨.Accepted, msg.message_id.toUInt64.toNat⟩

/-- What the message of a request carries, whatever the counters answered. -/
structure Assembled (uid : String) (request : SendMessageReq) (msg : InternalMessage) : Prop where
  sender_id : msg.message.sender_id = uid
  client_msg_id : msg.message.client_msg_id = request.client_msg_id
  conversation_id : msg.message.conversation_id = request.conversation_id
  content : msg.message.content = request.content
  content_ok : SendMessage.check_content request.content = none
  id_pos : 0 < msg.message.message_id.toUInt64.toNat
  seq_ne_zero : msg.message.seq_id ≠ 0

/-- The contract of a SendMessage request by `uid`; `key` is its idempotency key, if it has one. -/
def sendContract (key : Option String) (uid : String) (request : SendMessageReq) :
    Contract PipeOp PipeOp.Res SendPhase where
  allowed ph o :=
    match ph, o with
    | _, reply rsp =>
      rsp.header.success = true → ∃ m, rsp.message = some m ∧ ph.Vouches m.message_id
    | .start, redisSetNx k v => key = some k ∧ v = SendMessage.pending
    | .refused, redisGet k => key = some k
    | .sawId _, selectByClientMsg u c => u = uid ∧ c = request.client_msg_id
    | .sawPending, selectByClientMsg u c => u = uid ∧ c = request.client_msg_id
    | .sawCorrupt, redisDel k => key = some k
    | .cleared, redisSetNx k v => key = some k ∧ v = SendMessage.pending
    | .active own, redisDel k => own = true ∧ key = some k
    | .active _, publishConfirm msg => Assembled uid request msg
    | .active _, o => o.Private
    | .inflight _ _, awaitConfirm => True
    | .acked _ msg, redisSet k v => key = some k ∧ v = acceptedValue msg.message
    | .failing _ _, redisDel k => key = some k
    | _, _ => False
  admits _ o r := o.Answers r
  next ph o r :=
    match ph, o, r with
    | .start, redisSetNx _ _, .ok true => .active true
    | .start, redisSetNx _ _, .ok false => .refused
    | .start, redisSetNx _ _, .thrown => .active false
    | .refused, redisGet _, .ok cached => .ofCached cached
    | .refused, redisGet _, .thrown => .active false
    | .sawId _, selectByClientMsg _ _, some msg => .found msg
    | .sawPending, selectByClientMsg _ _, some msg => .found msg
    | .sawCorrupt, redisDel _, _ => .cleared
    | .cleared, redisSetNx _ _, .ok true => .active true
    | .cleared, redisSetNx _ _, .ok false => .turnedAway
    | .cleared, redisSetNx _ _, .thrown => .active false
    | .active _, redisDel _, .ok () => .released
    | .active own, publishConfirm msg, .ok () => .inflight own msg
    | .active own, publishConfirm msg, .thrown => .failing own msg
    | .inflight own msg, awaitConfirm, .Acked => .acked own msg
    | .inflight own msg, awaitConfirm, _ => .failing own msg
    | .failing own msg, redisDel _, .ok () => .failed own msg
    | ph, _, _ => ph

/-! ### The handler follows the contract -/

namespace SendMessage

variable {cfg : TransmiteConfig} {key : Option String} {uid rid : String}
  {request : SendMessageReq}

/-- A rejection is allowed anywhere, as long as only an owner deletes the key. -/
theorem err_response_meets {k : String} {set : Bool} {e : ServiceError} {ph : SendPhase}
    (h : set = true → k ≠ "" → ph = .active true ∧ key = some k) :
    (err_response cfg k set rid e).Meets (sendContract key uid request) ph
      fun _ _ ↦ True := by
  by_cases hc : (set && k ≠ "" && cfg.redis) = true
  · obtain ⟨⟨hs, hk⟩, -⟩ : (set = true ∧ k ≠ "") ∧ cfg.redis = true := by simpa using hc
    obtain ⟨rfl, hkey⟩ := h hs hk
    rw [err_response, if_pos hc]
    refine meets_op_bind.2 ⟨⟨rfl, hkey⟩, fun r _ ↦ ?_⟩
    cases r <;> exact ⟨by simp [sendContract], fun _ _ ↦ trivial⟩
  · rw [err_response, if_neg hc]
    exact ⟨by simp [sendContract], fun _ _ ↦ trivial⟩

theorem resolve_members_retry_meets {ssid : String} {own : Bool} (n : ℕ) :
    (resolve_members_retry ssid n).Meets (sendContract key uid request) (.active own)
      fun ph _ ↦ ph = .active own := by
  induction n with
  | zero => exact ⟨trivial, fun _ _ ↦ rfl⟩
  | succ n ih =>
    refine meets_op_bind.2 ⟨trivial, fun r _ ↦ ?_⟩
    cases r with
    | thrown => exact rfl
    | ok r =>
      dsimp only
      split
      · exact rfl
      · exact ih

/-- The sender's profile, the members, and the sender among them: nothing others can see. -/
theorem resolve_stage_meets {ssid : String} {own : Bool} :
    (resolve_stage uid ssid).Meets (sendContract key uid request) (.active own)
      fun ph _ ↦ ph = .active own := by
  refine meets_op_bind.2 ⟨trivial, fun r _ ↦ ?_⟩
  rcases r with ⟨_ | _⟩ | _
  · exact rfl
  · refine (resolve_members_retry_meets 2).bind fun ph r hph ↦ ?_
    subst hph
    cases r with
    | thrown => exact rfl
    | ok r =>
      dsimp only
      split
      · exact rfl
      · split <;> exact rfl
  · exact rfl

/-- The admission checks leave no trace. -/
theorem admission_meets {ssid : String} {own : Bool} :
    (admission cfg uid ssid).Meets (sendContract key uid request) (.active own)
      fun ph _ ↦ ph = .active own := by
  rw [admission]
  split
  · refine meets_op_bind.2 ⟨trivial, fun r _ ↦ ?_⟩
    cases r with
    | false => exact rfl
    | true =>
      refine meets_op_bind.2 ⟨trivial, fun r _ ↦ ?_⟩
      cases r with
      | false => exact rfl
      | true => exact resolve_stage_meets
  · exact resolve_stage_meets

theorem message_of_id {session_seq id : ℕ} {ms : Int64}
    (hid : id < 2 ^ 64) :
    (message_of uid request session_seq id ms).message_id.toUInt64.toNat = id := by
  show (UInt64.ofNat id).toInt64.toUInt64.toNat = id
  rw [UInt64.toUInt64_toInt64, UInt64.toNat_ofNat', Nat.mod_eq_of_lt hid]

/-- Assembling a message touches only counters. -/
theorem assemble_meets {members : List String} {own : Bool}
    (hc : check_content request.content = none) :
    (assemble uid request members).Meets (sendContract key uid request) (.active own)
      fun ph r ↦ ph = .active own ∧
        ∀ msg, r = .proceed msg → Assembled uid request msg := by
  refine meets_op_bind.2 ⟨trivial, fun session_seq hlt ↦ ?_⟩
  split
  · exact ⟨rfl, by simp⟩
  · next hne =>
    have hseq : UInt64.ofNat session_seq ≠ 0 := by
      intro h
      have hnat := congrArg UInt64.toNat h
      rw [UInt64.toNat_ofNat', Nat.mod_eq_of_lt hlt] at hnat
      exact hne hnat
    refine meets_op_bind.2 ⟨trivial, fun r hr ↦ ?_⟩
    cases r with
    | thrown => exact ⟨rfl, by simp⟩
    | ok id =>
      have hpos : ∀ ms,
          0 < (message_of uid request session_seq id ms).message_id.toUInt64.toNat := by
        intro ms
        rw [message_of_id hr.2]
        exact hr.1
      refine meets_op_bind.2 ⟨trivial, fun ms _ ↦ ?_⟩
      dsimp only
      split
      · refine ⟨rfl, ?_⟩
        rintro _ ⟨⟩
        exact ⟨rfl, rfl, rfl, rfl, hc, hpos ms, hseq⟩
      · refine meets_op_bind.2 ⟨trivial, fun seqs _ ↦ ?_⟩
        split
        · exact ⟨rfl, by simp⟩
        · refine ⟨rfl, ?_⟩
          rintro _ ⟨⟩
          exact ⟨rfl, rfl, rfl, rfl, hc, hpos ms, hseq⟩

/-- The key a stage works with is the key of the contract, when it is not skipped. -/
def KeyOf (key : Option String) (cfg : TransmiteConfig) (k : String) : Prop :=
  k ≠ "" → cfg.redis = true → key = some k

theorem publish_failed_meets {k m : String} {own : Bool} {msg : InternalMessage}
    (hk : KeyOf key cfg k) :
    (publish_failed cfg k rid m).Meets (sendContract key uid request) (.failing own msg)
      fun _ _ ↦ True := by
  rw [publish_failed]
  split
  · next hc =>
    obtain ⟨hne, hr⟩ : k ≠ "" ∧ cfg.redis = true := by simpa using hc
    refine meets_op_bind.2 ⟨hk hne hr, fun r _ ↦ ?_⟩
    cases r <;> exact ⟨by simp [sendContract], fun _ _ ↦ trivial⟩
  · exact ⟨by simp [sendContract], fun _ _ ↦ trivial⟩

/-- The publish and its callback. -/
theorem publish_meets {k : String} {own : Bool} {msg : InternalMessage} (hk : KeyOf key cfg k)
    (hmsg : Assembled uid request msg) :
    (publish cfg k rid msg).Meets (sendContract key uid request) (.active own)
      fun _ _ ↦ True := by
  refine meets_op_bind.2 ⟨hmsg, fun r _ ↦ ?_⟩
  cases r with
  | thrown => exact publish_failed_meets hk
  | ok =>
    refine meets_op_bind.2 ⟨trivial, fun st _ ↦ ?_⟩
    cases st with
    | Acked =>
      dsimp only
      split
      · next hc =>
        obtain ⟨hne, hr⟩ : k ≠ "" ∧ cfg.redis = true := by simpa using hc
        refine meets_op_bind.2 ⟨⟨hk hne hr, rfl⟩, fun r _ ↦ ?_⟩
        exact ⟨fun _ ↦ ⟨_, rfl, rfl⟩, fun _ _ ↦ trivial⟩
      · exact ⟨fun _ ↦ ⟨_, rfl, rfl⟩, fun _ _ ↦ trivial⟩
    | Nacked => exact publish_failed_meets hk
    | Lost => exact publish_failed_meets hk
    | Error => exact publish_failed_meets hk

/-- Past the gate. -/
theorem process_meets {k : String} {own : Bool} (hk : KeyOf key cfg k)
    (hown : own = true → key = some k) (hc : check_content request.content = none) :
    (process cfg uid request k own).Meets (sendContract key uid request)
      (.active own) fun _ _ ↦ True := by
  refine admission_meets.bind fun ph r hph ↦ ?_
  subst hph
  have herr : ∀ e, (err_response cfg k own request.request_id e).Meets
      (sendContract key uid request) (.active own) fun _ _ ↦ True := by
    intro e
    refine err_response_meets fun hset _ ↦ ?_
    exact ⟨by rw [hset], hown hset⟩
  cases r with
  | thrown => exact ⟨by simp [sendContract], fun _ _ ↦ trivial⟩
  | reject e => exact herr e
  | proceed members =>
    refine (assemble_meets hc).bind fun ph r hr ↦ ?_
    obtain ⟨rfl, hmsg⟩ := hr
    cases r with
    | thrown => exact ⟨by simp [sendContract], fun _ _ ↦ trivial⟩
    | reject e => exact herr e
    | proceed msg => exact publish_meets hk (hmsg msg rfl)

/-- The gate, for a request that has a key. -/
theorem idempotency_gate_meets (hc : request.client_msg_id ≠ "") (hr : cfg.redis = true) :
    (idempotency_gate cfg uid request.client_msg_id rid).Meets
      (sendContract (some (idempotency_key_for uid request.client_msg_id)) uid request) .start
      fun ph r ↦ ∀ own, r = .proceed own → ph = .active own := by
  have hin : ∀ ph e, (err_response cfg (idempotency_key_for uid request.client_msg_id) false rid e
      >>= fun _ ↦ (Prog.ret Gate.answered : PipeM Gate)).Meets
      (sendContract (some (idempotency_key_for uid request.client_msg_id)) uid request) ph
      fun ph r ↦ ∀ own, r = .proceed own → ph = .active own := by
    intro ph e
    exact (err_response_meets (by simp)).bind fun _ _ _ ↦ by simp
  rw [idempotency_gate]
  rw [if_neg (by simp [hc, hr])]
  refine meets_op_bind.2 ⟨⟨rfl, rfl⟩, fun r _ ↦ ?_⟩
  rcases r with ⟨_ | _⟩ | _
  · refine meets_op_bind.2 ⟨rfl, fun r _ ↦ ?_⟩
    rcases r with cached | _
    · -- what was read decides the branch of the gate and the phase alike
      show Prog.Meets _ _ (SendPhase.ofCached cached) _
      rw [SendPhase.ofCached]
      dsimp only
      generalize cached_state cached = state
      obtain ⟨status, id⟩ := state
      cases status with
      | Accepted | Persisted =>
        rw [if_pos (by simp)]
        refine meets_op_bind.2 ⟨⟨rfl, rfl⟩, fun m _ ↦ ?_⟩
        cases m <;> exact ⟨fun _ ↦ ⟨_, rfl, rfl⟩, fun _ _ ↦ by rintro _ ⟨⟩⟩
      | Corrupt =>
        rw [if_neg (by simp), if_pos rfl]
        refine meets_op_bind.2 ⟨rfl, fun _ _ ↦ ?_⟩
        refine meets_op_bind.2 ⟨⟨rfl, rfl⟩, fun r _ ↦ ?_⟩
        rcases r with ⟨_ | _⟩ | _
        · exact hin _ _
        · rintro _ ⟨⟩
          exact rfl
        · rintro _ ⟨⟩
          exact rfl
      | Empty | Pending =>
        rw [if_neg (by simp), if_neg (by simp)]
        refine meets_op_bind.2 ⟨⟨rfl, rfl⟩, fun m _ ↦ ?_⟩
        cases m with
        | none => exact hin _ _
        | some m => exact ⟨fun _ ↦ ⟨m, rfl, rfl⟩, fun _ _ ↦ by rintro _ ⟨⟩⟩
    · rintro _ ⟨⟩
      exact rfl
  · rintro _ ⟨⟩
    exact rfl
  · rintro _ ⟨⟩
    exact rfl

end SendMessage

open SendMessage

/-- The idempotency key of a request, if it goes through the gate. -/
def sendKey (cfg : TransmiteConfig) (uid client_msg_id : String) : Option String :=
  if client_msg_id ≠ "" ∧ cfg.redis = true then some (idempotency_key_for uid client_msg_id)
  else none

/-- Where a request of `uid` starts. -/
def sendStart (cfg : TransmiteConfig) (client_msg_id : String) : SendPhase :=
  if client_msg_id ≠ "" ∧ cfg.redis = true then .start else .active false

/-- **A request follows its contract**, on every path: whatever it is answered, the calls that
SendMessage makes are those that its phase allows. -/
theorem sendMessage_meets (cfg : TransmiteConfig) (uid : String) (request : SendMessageReq) :
    (SendMessage cfg (.ok uid) request).Meets
      (sendContract (sendKey cfg uid request.client_msg_id) uid request)
      (sendStart cfg request.client_msg_id) fun _ _ ↦ True := by
  unfold SendMessage
  dsimp only
  split
  · exact err_response_meets (by simp)
  · next hcheck =>
    by_cases h : request.client_msg_id ≠ "" ∧ cfg.redis = true
    · rw [sendKey, sendStart, if_pos h, if_pos h]
      refine (idempotency_gate_meets h.1 h.2).bind fun ph r hr ↦ ?_
      cases r with
      | answered => exact trivial
      | proceed own =>
        obtain rfl := hr own rfl
        have hk : idem_key cfg uid request.client_msg_id =
            idempotency_key_for uid request.client_msg_id := by
          rw [idem_key, if_pos (by simpa using h)]
        rw [hk]
        exact process_meets (fun _ _ ↦ rfl) (fun _ ↦ rfl) hcheck
    · rw [sendKey, sendStart, if_neg h, if_neg h]
      have hgate : idempotency_gate cfg uid request.client_msg_id request.request_id =
          .ret (.proceed false) := by
        rw [idempotency_gate, if_pos (by simpa [or_iff_not_imp_left] using h)]
        rfl
      have hk : idem_key cfg uid request.client_msg_id = "" := by
        rw [idem_key, if_neg (by simpa using h)]
      rw [hgate, hk]
      exact process_meets (fun hne ↦ absurd rfl hne) (by simp) hcheck

end ChatNow
