import ChatNow.Lib.Recorded
import ChatNow.Pipeline.Moves

/-!
# Giving the idempotency key back

A request that took its key and fails has to delete it, or the client's retry is refused until the
key expires. `Pipe.PendingOf` says that a key holds the pending value of a request, and
`failing_exit_frees_key` that it is never that of a request that has ended without an ack, as long
as the request knew of its key and no exception left the handler: the exits by an error response and
by a failed publish delete the key, the exits by an exception answer and leave it
(`exception_keeps_key`). A request whose `SET NX` has thrown goes on without a key, and the command
may have been executed all the same. Its failed publish deletes the key, its error responses do not.

The automaton (`keyContract`) forgets everything about a request but whether it holds the key. A
request that was acked, whose deletion Redis refused, or whom an exception ended is **excused**.
-/

namespace ChatNow

open Prog PipeOp SendMessage

/-! ### What a call says -/

/-- A call with its answer. -/
abbrev PipeCall := Σ o, PipeOp.Res o

/-- An exception leaves the handler: the id generator, or a lookup of the profile or the members,
has thrown. -/
def PipeCall.leaves : PipeCall → Bool
  | ⟨nextId, .thrown⟩ => true
  | ⟨resolveUserInfo _, .thrown⟩ => true
  | ⟨resolveMembers _, .thrown⟩ => true
  | _ => false

/-- The broker has acked the publish. -/
def PipeCall.acks : PipeCall → Bool
  | ⟨awaitConfirm, .Acked⟩ => true
  | _ => false

/-- Redis could not execute a deletion. -/
def PipeCall.delFails : PipeCall → Bool
  | ⟨redisDel _, .thrown⟩ => true
  | _ => false

/-- The request has set its key to `pending`. -/
def PipeCall.takes (k : String) : PipeCall → Bool
  | ⟨redisSetNx k' _, .ok true⟩ => k' = k
  | _ => false

/-- The `SET NX` of the request has thrown. -/
def PipeCall.takeFails : PipeCall → Bool
  | ⟨redisSetNx _ _, .thrown⟩ => true
  | _ => false

/-- The request publishes. -/
def PipeCall.publishes : PipeCall → Bool
  | ⟨publishConfirm _, _⟩ => true
  | _ => false

/-- Why a request may end with its pending value under the key. -/
def PipeCall.excuses (e : PipeCall) : Bool :=
  PipeCall.leaves e || PipeCall.acks e || PipeCall.delFails e

/-- Under the key is the pending value of a request. -/
def Pipe.PendingOf (s : Pipe) (k : String) (i : ℕ) : Prop :=
  s.redis k = some pending ∧ s.writer k = some i

instance (s : Pipe) (k : String) (i : ℕ) : Decidable (s.PendingOf k i) :=
  inferInstanceAs (Decidable (_ ∧ _))

/-! ### Holding the key -/

/-- Whether a request holds its key. -/
inductive KeyPhase
  | free
  /-- Its `SET NX` has thrown, and it has not published. -/
  | unsure
  | holds
  /-- It took the key, and was acked, ended by an exception, or refused the deletion. -/
  | excused
  /-- It has published without the key, or given the key back. -/
  | spent
  deriving DecidableEq

/-- The phase after a call. -/
def KeyPhase.next : KeyPhase → PipeCall → KeyPhase
  | free, ⟨redisSetNx _ _, .ok true⟩ => holds
  | free, ⟨redisSetNx _ _, .thrown⟩ => unsure
  | free, ⟨publishConfirm _, _⟩ => spent
  -- once it has published, it deletes the key whether it knows of it or not
  | unsure, ⟨publishConfirm _, _⟩ => holds
  | holds, ⟨redisDel _, .ok ()⟩ => spent
  | holds, e => if PipeCall.excuses e then excused else holds
  | ph, _ => ph

/-- Its pending value may be under its key. -/
def KeyPhase.Held : KeyPhase → Prop
  | free => False
  | spent => False
  | _ => True

/-- It has not published, and does not know of a key. -/
def KeyPhase.Fresh : KeyPhase → Prop
  | free => True
  | unsure => True
  | _ => False

/-- A thread of the pool, as far as the keys go. -/
inductive KeyThread
  | request (key : Option String) (ph : KeyPhase)
  | other

/-- A thread may end here: no request ends with the key in its hands. -/
def KeyThread.Settled : KeyThread → Prop
  | request _ ph => ph ≠ .holds
  | other => True

/-- The contract of a thread. -/
def keyContract : Contract PipeOp PipeOp.Res KeyThread where
  allowed t o :=
    match t, o with
    | .request key ph, redisSetNx k v => key = some k ∧ v = pending ∧ ph = .free
    | .request key _, redisDel k => key = some k
    | .other, redisSetNx _ _ => False
    | .other, redisDel _ => False
    | _, redisSet _ v => v ≠ pending
    | _, _ => True
  admits _ _ _ := True
  next t o r :=
    match t with
    | .request key ph => .request key (ph.next ⟨o, r⟩)
    | .other => .other

section Handler

variable {cfg : TransmiteConfig} {key : Option String} {uid rid : String} {ph : KeyPhase}
  {request : SendMessageReq}

theorem acceptedValue_ne_pending (msg : Message) : acceptedValue msg ≠ pending :=
  ne_of_take_ne 1 (by simp [acceptedValue, pending, serialize_idempotency_state])

theorem persistedValue_ne_pending (msg : Message) : persistedValue msg ≠ pending :=
  ne_of_take_ne 3 (by simp [persistedValue, pending, serialize_idempotency_state])

/-- After an attempt to delete the key and the answer, the request no longer holds it. -/
theorem del_reply_meets {k : String} {rsp : SendMessageRsp} (hk : key = some k) :
    (op (redisDel k) >>= fun _ ↦ op (reply rsp)).Meets keyContract (.request key ph)
      fun t _ ↦ t.Settled := by
  refine meets_op_bind.2 ⟨hk, fun r _ ↦ ⟨trivial, fun _ _ ↦ ?_⟩⟩
  cases ph <;> cases r <;> exact fun h ↦ by cases h

theorem reply_meets {rsp : SendMessageRsp} (h : ph ≠ .holds) :
    (op (reply rsp)).Meets keyContract (.request key ph) fun t _ ↦ t.Settled := by
  refine ⟨trivial, fun _ _ ↦ ?_⟩
  cases ph with
  | holds => exact absurd rfl h
  | free | unsure | excused | spent => exact fun h ↦ by cases h

/-- An error response deletes the key of a request that holds one. -/
theorem err_response_frees {k : String} {set : Bool} {e : ServiceError}
    (hk : set = true → k ≠ "" → cfg.redis = true → key = some k)
    (hset : ph = .holds → set = true ∧ k ≠ "" ∧ cfg.redis = true) :
    (err_response cfg k set rid e).Meets keyContract (.request key ph) fun t _ ↦ t.Settled := by
  rw [err_response]
  split
  · next hc =>
    obtain ⟨⟨hs, hne⟩, hr⟩ : (set = true ∧ k ≠ "") ∧ cfg.redis = true := by simpa using hc
    exact del_reply_meets (hk hs hne hr)
  · next hc =>
    refine reply_meets fun h ↦ hc ?_
    obtain ⟨hs, hne, hr⟩ := hset h
    simp [hs, hne, hr]

/-- A failed publish deletes the key. -/
theorem publish_failed_frees {k m : String} (hk : k ≠ "" → cfg.redis = true → key = some k)
    (hset : ph = .holds → k ≠ "" ∧ cfg.redis = true) :
    (publish_failed cfg k rid m).Meets keyContract (.request key ph) fun t _ ↦ t.Settled := by
  rw [publish_failed]
  split
  · next hc =>
    obtain ⟨hne, hr⟩ : k ≠ "" ∧ cfg.redis = true := by simpa using hc
    exact del_reply_meets (hk hne hr)
  · next hc =>
    refine reply_meets fun h ↦ hc ?_
    obtain ⟨hne, hr⟩ := hset h
    simp [hne, hr]

/-- How a stage ends: with an exception it lets go of the key, otherwise it leaves it as it was. -/
def StageEnds {α : Type} (key : Option String) (ph : KeyPhase) (t : KeyThread) : Stage α → Prop
  | .thrown => ∃ ph', ph' ≠ .holds ∧ t = .request key ph'
  | _ => t = .request key ph

/-- An exception excuses a holder. -/
theorem next_of_leaves {e : PipeCall} (h : PipeCall.leaves e = true) : ph.next e ≠ .holds := by
  obtain ⟨o, r⟩ := e
  cases o with
  | nextId | resolveUserInfo | resolveMembers =>
    cases r with
    | thrown => cases ph <;> exact fun h ↦ by cases h
    | ok => cases h
  | _ => cases h

theorem resolve_members_retry_keeps {ssid : String} (n : ℕ) :
    (resolve_members_retry ssid n).Meets keyContract (.request key ph) fun t r ↦
      match r with
      | .thrown => ∃ ph', ph' ≠ .holds ∧ t = .request key ph'
      | .ok _ => t = .request key ph := by
  have hstep : ∀ m, ph.next ⟨resolveMembers ssid, .ok m⟩ = ph := by
    intro m
    cases ph <;> rfl
  induction n with
  | zero =>
    refine ⟨trivial, fun r _ ↦ ?_⟩
    cases r with
    | thrown => exact ⟨_, next_of_leaves rfl, rfl⟩
    | ok m => exact congrArg (KeyThread.request key) (hstep m)
  | succ n ih =>
    refine meets_op_bind.2 ⟨trivial, fun r _ ↦ ?_⟩
    cases r with
    | thrown => exact ⟨_, next_of_leaves rfl, rfl⟩
    | ok m =>
      show Prog.Meets _ _ (KeyThread.request key _) _
      rw [hstep]
      dsimp only
      split
      · exact rfl
      · exact ih

theorem resolve_stage_keeps {ssid : String} :
    (resolve_stage uid ssid).Meets keyContract (.request key ph) (StageEnds key ph) := by
  have hstep : ∀ b, ph.next ⟨resolveUserInfo uid, .ok b⟩ = ph := by
    intro b
    cases ph <;> rfl
  refine meets_op_bind.2 ⟨trivial, fun r _ ↦ ?_⟩
  rcases r with ⟨_ | _⟩ | _
  · exact congrArg (KeyThread.request key) (hstep false)
  · show Prog.Meets _ _ (KeyThread.request key _) _
    rw [hstep]
    refine (resolve_members_retry_keeps 2).bind fun t r hr ↦ ?_
    cases r with
    | thrown => exact hr
    | ok m =>
      dsimp only
      split
      · exact hr
      · split <;> exact hr
  · exact ⟨_, next_of_leaves rfl, rfl⟩

theorem admission_keeps {ssid : String} :
    (admission cfg uid ssid).Meets keyContract (.request key ph) (StageEnds key ph) := by
  have huser : ∀ b, ph.next ⟨allowUser uid, b⟩ = ph := by
    intro b
    cases ph <;> rfl
  have hsession : ∀ b, ph.next ⟨allowSession ssid, b⟩ = ph := by
    intro b
    cases ph <;> rfl
  rw [admission]
  split
  · refine meets_op_bind.2 ⟨trivial, fun r _ ↦ ?_⟩
    show Prog.Meets _ _ (KeyThread.request key _) _
    rw [huser]
    cases r with
    | false => exact rfl
    | true =>
      refine meets_op_bind.2 ⟨trivial, fun r _ ↦ ?_⟩
      show Prog.Meets _ _ (KeyThread.request key _) _
      rw [hsession]
      cases r with
      | false => exact rfl
      | true => exact resolve_stage_keeps
  · exact resolve_stage_keeps

theorem assemble_keeps {members : List String} :
    (assemble uid request members).Meets keyContract (.request key ph) (StageEnds key ph) := by
  have hseq : ∀ n, ph.next ⟨nextSessionSeq request.conversation_id, n⟩ = ph := by
    intro n
    cases ph <;> rfl
  have hid : ∀ n, ph.next ⟨nextId, .ok n⟩ = ph := by
    intro n
    cases ph <;> rfl
  have hms : ∀ n, ph.next ⟨nowMs, n⟩ = ph := by
    intro n
    cases ph <;> rfl
  have husers : ∀ ns, ph.next ⟨nextUserSeqBatch members, ns⟩ = ph := by
    intro n
    cases ph <;> rfl
  refine meets_op_bind.2 ⟨trivial, fun session_seq _ ↦ ?_⟩
  show Prog.Meets _ _ (KeyThread.request key _) _
  rw [hseq]
  split
  · exact rfl
  · refine meets_op_bind.2 ⟨trivial, fun r _ ↦ ?_⟩
    cases r with
    | thrown => exact ⟨_, next_of_leaves rfl, rfl⟩
    | ok id =>
      show Prog.Meets _ _ (KeyThread.request key _) _
      rw [hid]
      refine meets_op_bind.2 ⟨trivial, fun ms _ ↦ ?_⟩
      show Prog.Meets _ _ (KeyThread.request key _) _
      rw [hms]
      dsimp only
      split
      · exact rfl
      · refine meets_op_bind.2 ⟨trivial, fun seqs _ ↦ ?_⟩
        show Prog.Meets _ _ (KeyThread.request key _) _
        rw [husers]
        split <;> exact rfl

/-- The publish and its callback: an ack excuses whoever may hold the key, anything else makes it
delete the key. -/
theorem publish_frees {k : String} {msg : InternalMessage}
    (hk : k ≠ "" → cfg.redis = true → key = some k)
    (hset : ph.Held → k ≠ "" ∧ cfg.redis = true) :
    (publish cfg k rid msg).Meets keyContract (.request key ph) fun t _ ↦ t.Settled := by
  -- where the publish leads
  obtain ⟨ph', hpub, hheld⟩ : ∃ ph', (∀ r, ph.next ⟨publishConfirm msg, r⟩ = ph') ∧
      (ph' = .holds → ph.Held) := by
    cases ph with
    | free | spent => exact ⟨.spent, fun _ ↦ rfl, fun h ↦ by cases h⟩
    | unsure | holds => exact ⟨.holds, fun _ ↦ rfl, fun _ ↦ trivial⟩
    | excused => exact ⟨.excused, fun _ ↦ rfl, fun h ↦ by cases h⟩
  have hfail : ∀ m, (publish_failed cfg k rid m).Meets keyContract (.request key ph')
      fun t _ ↦ t.Settled :=
    fun m ↦ publish_failed_frees hk fun h ↦ hset (hheld h)
  refine meets_op_bind.2 ⟨trivial, fun r _ ↦ ?_⟩
  show Prog.Meets _ _ (KeyThread.request key _) _
  rw [hpub]
  cases r with
  | thrown => exact hfail _
  | ok =>
    refine meets_op_bind.2 ⟨trivial, fun st _ ↦ ?_⟩
    show Prog.Meets _ _ (KeyThread.request key (ph'.next ⟨awaitConfirm, st⟩)) _
    cases st with
    | Acked =>
      have hack : ph'.next ⟨awaitConfirm, .Acked⟩ ≠ .holds := by
        cases ph' <;> exact fun h ↦ by cases h
      dsimp only
      split
      · refine meets_op_bind.2 ⟨acceptedValue_ne_pending _, fun r _ ↦ reply_meets ?_⟩
        cases ph' <;> cases r <;> exact fun h ↦ by cases h
      · exact reply_meets hack
    | Nacked | Lost | Error =>
      rw [show ph'.next ⟨awaitConfirm, _⟩ = ph' by cases ph' <;> rfl]
      exact hfail _

/-- Past the gate. -/
theorem process_frees {k : String} {own : Bool} (hk : k ≠ "" → cfg.redis = true → key = some k)
    (hown : ph = .holds → own = true) (hset : ph.Held → k ≠ "" ∧ cfg.redis = true) :
    (process cfg uid request k own).Meets keyContract (.request key ph) fun t _ ↦ t.Settled := by
  have herr : ∀ e, (err_response cfg k own request.request_id e).Meets keyContract
      (.request key ph) fun t _ ↦ t.Settled :=
    fun e ↦ err_response_frees (fun _ ↦ hk) fun h ↦ ⟨hown h, hset (h ▸ trivial)⟩
  refine admission_keeps.bind fun t r hr ↦ ?_
  cases r with
  | thrown =>
    obtain ⟨ph', hph', rfl⟩ := hr
    exact reply_meets hph'
  | reject e =>
    obtain rfl : t = .request key ph := hr
    exact herr e
  | proceed members =>
    obtain rfl : t = .request key ph := hr
    refine assemble_keeps.bind fun t r hr ↦ ?_
    cases r with
    | thrown =>
      obtain ⟨ph', hph', rfl⟩ := hr
      exact reply_meets hph'
    | reject e =>
      obtain rfl : t = .request key ph := hr
      exact herr e
    | proceed msg =>
      obtain rfl : t = .request key ph := hr
      exact publish_frees hk hset

/-- How the gate leaves a request: it keeps the key of none that it answers, and one that it lets
pass with the key in its hands knows of it. -/
def GateEnds (key : Option String) (t : KeyThread) : SendMessage.Gate → Prop
  | .answered => t.Settled
  | .proceed own => ∃ ph, t = .request key ph ∧ (ph = .holds → own = true)

/-- The gate. -/
theorem idempotency_gate_keeps (hc : request.client_msg_id ≠ "") (hr : cfg.redis = true) :
    (idempotency_gate cfg uid request.client_msg_id rid).Meets keyContract
      (.request (some (idempotency_key_for uid request.client_msg_id)) .free)
      (GateEnds (some (idempotency_key_for uid request.client_msg_id))) := by
  have hturn : ∀ k e, (err_response cfg k false rid e >>= fun _ ↦
      (Prog.ret .answered : PipeM SendMessage.Gate)).Meets keyContract
      (.request (some (idempotency_key_for uid request.client_msg_id)) .free)
      (GateEnds (some (idempotency_key_for uid request.client_msg_id))) :=
    fun k e ↦ (err_response_frees (by simp) (by simp)).bind fun _ _ h ↦ h
  have hsay : ∀ rsp, (op (reply rsp) >>= fun _ ↦
      (Prog.ret .answered : PipeM SendMessage.Gate)).Meets keyContract
      (.request (some (idempotency_key_for uid request.client_msg_id)) .free)
      (GateEnds (some (idempotency_key_for uid request.client_msg_id))) :=
    fun rsp ↦ ⟨trivial, fun _ _ h ↦ by cases h⟩
  rw [idempotency_gate, if_neg (by simp [hc, hr])]
  refine meets_op_bind.2 ⟨⟨rfl, rfl, rfl⟩, fun r _ ↦ ?_⟩
  rcases r with ⟨_ | _⟩ | _
  · refine meets_op_bind.2 ⟨trivial, fun r _ ↦ ?_⟩
    rcases r with cached | _
    · dsimp only
      split
      · exact meets_op_bind.2 ⟨trivial, fun m _ ↦ hsay _⟩
      · split
        · refine meets_op_bind.2 ⟨rfl, fun r _ ↦ ?_⟩
          cases r with
          | ok | thrown =>
            refine meets_op_bind.2 ⟨⟨rfl, rfl, rfl⟩, fun r _ ↦ ?_⟩
            rcases r with ⟨_ | _⟩ | _
            · exact hturn _ _
            · exact ⟨.holds, rfl, fun _ ↦ rfl⟩
            · exact ⟨.unsure, rfl, fun h ↦ by cases h⟩
        · refine meets_op_bind.2 ⟨trivial, fun m _ ↦ ?_⟩
          cases m with
          | none => exact hturn _ _
          | some m => exact hsay _
    · exact ⟨.free, rfl, fun h ↦ by cases h⟩
  · exact ⟨.holds, rfl, fun _ ↦ rfl⟩
  · exact ⟨.unsure, rfl, fun h ↦ by cases h⟩

end Handler

/-- **A request gives its key back** on every path, unless it is acked, refused the deletion, or
ended by an exception. -/
theorem sendMessage_frees (cfg : TransmiteConfig) (uid : String) (request : SendMessageReq) :
    (SendMessage cfg (.ok uid) request).Meets keyContract
      (.request (sendKey cfg uid request.client_msg_id) .free) fun t _ ↦ t.Settled := by
  unfold SendMessage
  dsimp only
  split
  · exact err_response_frees (by simp) (by simp)
  · by_cases h : request.client_msg_id ≠ "" ∧ cfg.redis = true
    · have hk : idem_key cfg uid request.client_msg_id =
          idempotency_key_for uid request.client_msg_id := by
        rw [idem_key, if_pos (by simpa using h)]
      have hne : idempotency_key_for uid request.client_msg_id ≠ "" :=
        ne_of_take_ne 1 (by simp [idempotency_key_for])
      rw [sendKey, if_pos h]
      refine (idempotency_gate_keeps h.1 h.2).bind fun t r hr ↦ ?_
      cases r with
      | answered => exact hr
      | proceed own =>
        obtain ⟨ph, rfl, hown⟩ := hr
        rw [hk]
        exact process_frees (fun _ _ ↦ rfl) hown fun _ ↦ ⟨hne, h.2⟩
    · have hgate : idempotency_gate cfg uid request.client_msg_id request.request_id =
          .ret (.proceed false) := by
        rw [idempotency_gate, if_pos (by simpa [or_iff_not_imp_left] using h)]
        rfl
      have hk : idem_key cfg uid request.client_msg_id = "" := by
        rw [idem_key, if_neg (by simpa using h)]
      rw [sendKey, if_neg h, hgate, hk]
      exact process_frees (fun hne ↦ absurd rfl hne) (fun h ↦ by cases h) False.elim

/-- A delivery and a sync call take no key and delete none. -/
theorem consume_takes_no_key (cfg : MessageConfig) (msg : InternalMessage) (redelivered : Bool) :
    (consume cfg msg redelivered).Meets keyContract .other fun t _ ↦ t.Settled := by
  refine ((consume_meets cfg msg redelivered).map (fun _ ↦ KeyThread.other) ?_
    (fun _ _ _ _ ↦ trivial) fun _ _ _ ↦ rfl).mono ?_
  · intro ph o h
    cases o with
    | redisSetNx | redisDel => cases ph <;> exact h
    | redisSet k v =>
      cases ph with
      | committed => exact h.2.1 ▸ persistedValue_ne_pending _
      | _ => exact h.elim
    | _ => exact trivial
  · rintro _ _ ⟨_, rfl, -⟩
    exact trivial

theorem sync_call_takes_no_key (client : ℕ) (rid uid cid : String) (after_seq : UInt64)
    (limit : Int32) :
    (sync_call client rid uid cid after_seq limit).Meets keyContract .other
      fun t _ ↦ t.Settled := by
  refine ((sync_call_meets client rid uid cid after_seq limit).map (fun _ ↦ KeyThread.other) ?_
    (fun _ _ _ _ ↦ trivial) fun _ _ _ ↦ rfl).mono ?_
  · intro ph o h
    cases o with
    | redisSetNx | redisDel | redisSet => cases ph <;> exact h.elim
    | _ => exact trivial
  · rintro _ _ ⟨_, rfl, -⟩
    exact trivial

/-! ### Whose value is under a key -/

section Keys

variable {collate : String → String} {i j : ℕ} {k v : String} {o : PipeOp} {c : Choice} {r : o.Res}
  {s s' : Pipe}

/-- No call makes a delivery or a request. -/
theorem arrivals_of_exec (h : Pipe.exec collate i o c s = some (r, s')) :
    s'.deliveries = s.deliveries ∧ s'.requests = s.requests := by
  cases o with
  | settle action =>
    obtain ⟨-, rfl⟩ := Prod.ext_iff.1 (Option.some.inj h)
    cases action <;> exact ⟨rfl, rfl⟩
  | _ =>
    simp only [Pipe.exec] at h
    repeat' split at h
    all_goals cases h
    all_goals exact ⟨rfl, rfl⟩

/-- A call says what it may have written under a key. -/
def PipeCall.Writes (k v : String) : PipeCall → Prop
  | ⟨redisSetNx k' v', .ok b⟩ => b = true ∧ k' = k ∧ v' = v
  | ⟨redisSetNx k' v', .thrown⟩ => k' = k ∧ v' = v
  | ⟨redisSet k' v', _⟩ => k' = k ∧ v' = v
  | _ => False

/-- What is under a key when another, or the same, may just have been written. -/
theorem redis_of_setKey {b : Bool} {w : Option String} {k' : String} (s₀ : Pipe)
    (hs : s₀.redis = s.redis ∧ s₀.writer = s.writer)
    (h : (if b then s₀.setKey i k' w else s).redis k = some v) :
    (k' = k ∧ w = some v ∧ (if b then s₀.setKey i k' w else s).writer k = some i) ∨
      s.redis k = some v ∧ (if b then s₀.setKey i k' w else s).writer k = s.writer k ∧
        (b = true → k' ≠ k) := by
  cases b with
  | false => exact .inr ⟨h, rfl, fun e ↦ by cases e⟩
  | true =>
    by_cases hk : k = k'
    · subst hk
      have hw : w = some v := by simpa [Pipe.setKey] using h
      exact .inl ⟨rfl, hw, by simp [Pipe.setKey, hw]⟩
    · have hold : s₀.redis k = some v := by simpa [Pipe.setKey, Function.update_of_ne hk] using h
      have hwriter : (s₀.setKey i k' w).writer k = s₀.writer k := Function.update_of_ne hk ..
      exact .inr ⟨hs.1 ▸ hold, hwriter.trans (congrFun hs.2 k), fun _ ↦ Ne.symm hk⟩

/-- What is under a key after a call was written by it, or was there before and not deleted. -/
theorem redis_of_exec (h : Pipe.exec collate i o c s = some (r, s')) (hv : s'.redis k = some v) :
    (PipeCall.Writes k v ⟨o, r⟩ ∧ s'.writer k = some i) ∨
      s.redis k = some v ∧ s'.writer k = s.writer k ∧
        (⟨o, r⟩ : PipeCall) ≠ ⟨redisDel k, .ok ()⟩ := by
  cases o with
  | redisSetNx k' v' =>
    simp only [Pipe.exec] at h
    split at h
    · obtain ⟨rfl, rfl⟩ := Prod.ext_iff.1 (Option.some.inj h)
      exact .inr ⟨hv, rfl, fun e ↦ by cases e⟩
    · obtain ⟨rfl, rfl⟩ := Prod.ext_iff.1 (Option.some.inj h)
      rcases redis_of_setKey s ⟨rfl, rfl⟩ hv with ⟨rfl, hw, hi⟩ | ⟨hold, hi, -⟩
      · refine .inl ⟨?_, hi⟩
        cases c.fault
        · exact ⟨rfl, rfl, Option.some.inj hw⟩
        · exact ⟨rfl, Option.some.inj hw⟩
      · exact .inr ⟨hold, hi, fun e ↦ by cases e⟩
  | redisSet k' v' =>
    obtain ⟨rfl, rfl⟩ := Prod.ext_iff.1 (Option.some.inj h)
    rcases redis_of_setKey s ⟨rfl, rfl⟩ hv with ⟨rfl, hw, hi⟩ | ⟨hold, hi, -⟩
    · exact .inl ⟨⟨rfl, Option.some.inj hw⟩, hi⟩
    · exact .inr ⟨hold, hi, fun e ↦ by cases e⟩
  | redisDel k' =>
    obtain ⟨rfl, rfl⟩ := Prod.ext_iff.1 (Option.some.inj h)
    rcases redis_of_setKey (s := s) (s.release i) ⟨rfl, rfl⟩ hv with ⟨-, hw, -⟩ | ⟨hold, hi, hne⟩
    · cases hw
    · refine .inr ⟨hold, hi, fun e ↦ ?_⟩
      cases hf : c.fault with
      | true =>
        rw [hf] at e
        cases e
      | false =>
        rw [hf] at e
        refine hne (Choice.acts_of_not_fault hf) ?_
        cases e
        rfl
  | redisGet k' =>
    simp only [Pipe.exec] at h
    split at h <;> cases h <;> exact .inr ⟨hv, rfl, fun e ↦ by cases e⟩
  | settle action =>
    obtain ⟨-, rfl⟩ := Prod.ext_iff.1 (Option.some.inj h)
    cases action <;> exact .inr ⟨hv, rfl, fun e ↦ by cases e⟩
  | _ =>
    simp only [Pipe.exec] at h
    repeat' split at h
    all_goals cases h
    all_goals exact .inr ⟨hv, rfl, fun e ↦ by cases e⟩

end Keys

/-- What the recorded runs keep: the threads of deliveries are no requests; a pending value under a
key is that of a request with this key that may hold it; who is excused or unsure has a call to show
for it; and who is fresh has not published. -/
structure KeyInv (ts : List KeyThread) (s : Pipe) (log : Machine.Record PipeOp PipeOp.Res) :
    Prop where
  others : ∀ d ∈ s.deliveries, ts[d.1]? = some .other
  started : ∀ e ∈ log, e.1 < ts.length
  holder : ∀ k i, s.PendingOf k i → ∃ ph, ts[i]? = some (.request (some k) ph) ∧ ph.Held
  excuse : ∀ i key, ts[i]? = some (.request key .excused) →
    ∃ e ∈ Machine.Record.of i log, PipeCall.excuses e = true
  unsure : ∀ i key, ts[i]? = some (.request key .unsure) →
    (Machine.Record.of i log).any PipeCall.takeFails = true
  fresh : ∀ i key ph, ts[i]? = some (.request key ph) → ph.Fresh →
    (Machine.Record.of i log).any PipeCall.publishes = false

/-! ### One call -/

namespace KeyPhase

variable {ph : KeyPhase} {e : PipeCall}

/-- What a call other than a deletion does to a holder. -/
theorem next_holds (hdel : ∀ k, e ≠ ⟨redisDel k, .ok ()⟩) :
    holds.next e = if PipeCall.excuses e then excused else holds := by
  obtain ⟨o, r⟩ := e
  cases o with
  | redisDel k =>
    cases r with
    | ok => exact absurd rfl (hdel k)
    | thrown => rfl
  | _ => rfl

/-- What a call does to a request that knows of no key. -/
theorem next_unsure : unsure.next e = if PipeCall.publishes e then holds else unsure := by
  obtain ⟨o, r⟩ := e
  cases o <;> rfl

/-- Only a deletion takes a held key away. -/
theorem held_of_next (h : ph.Held) (hdel : ∀ k, e ≠ ⟨redisDel k, .ok ()⟩) : (ph.next e).Held := by
  cases ph with
  | free | spent => exact h.elim
  | excused => exact trivial
  | unsure =>
    rw [next_unsure]
    split <;> exact trivial
  | holds =>
    rw [next_holds hdel]
    split <;> exact trivial

/-- Who becomes excused has an excuse. -/
theorem excuses_of_next (h : ph.next e = .excused) : ph = .excused ∨ PipeCall.excuses e = true := by
  cases ph with
  | excused => exact .inl rfl
  | spent => cases h
  | unsure =>
    rw [next_unsure] at h
    split at h <;> cases h
  | free =>
    obtain ⟨o, r⟩ := e
    cases o with
    | redisSetNx => rcases r with ⟨_ | _⟩ | _ <;> cases h
    | _ => cases h
  | holds =>
    by_cases hdel : ∃ k, e = ⟨redisDel k, .ok ()⟩
    · obtain ⟨k, rfl⟩ := hdel
      cases h
    · rw [next_holds fun k he ↦ hdel ⟨k, he⟩] at h
      split at h
      · next he => exact .inr he
      · cases h

/-- Who becomes unsure, or stays so, has not published. -/
theorem fresh_of_next (h : (ph.next e).Fresh) :
    ph.Fresh ∧ PipeCall.publishes e = false ∧
      (ph.next e = .unsure → ph = .unsure ∨ PipeCall.takeFails e = true) := by
  cases ph with
  | excused | spent => exact h.elim
  | unsure =>
    rw [next_unsure] at h
    split at h
    · exact h.elim
    · next he => exact ⟨trivial, by simpa using he, fun _ ↦ .inl rfl⟩
  | free =>
    obtain ⟨o, r⟩ := e
    cases o with
    | redisSetNx =>
      rcases r with ⟨_ | _⟩ | _
      · exact ⟨trivial, rfl, fun h ↦ by cases h⟩
      · exact h.elim
      · exact ⟨trivial, rfl, fun _ ↦ .inr rfl⟩
    | publishConfirm => exact h.elim
    | _ => exact ⟨trivial, rfl, fun h ↦ by cases h⟩
  | holds =>
    by_cases hdel : ∃ k, e = ⟨redisDel k, .ok ()⟩
    · obtain ⟨k, rfl⟩ := hdel
      exact h.elim
    · rw [next_holds fun k he ↦ hdel ⟨k, he⟩] at h
      split at h <;> exact h.elim

end KeyPhase

/-! ### Every run -/

namespace KeyInv

variable {ts : List KeyThread} {s s' : Pipe} {log : Machine.Record PipeOp PipeOp.Res} {i : ℕ}

/-- What a thread may write under a key as `pending` makes it the holder of the key. -/
theorem held_of_writes {t : KeyThread} {o : PipeOp} {r : o.Res}
    {k : String} (ha : keyContract.allowed t o) (hw : PipeCall.Writes k pending ⟨o, r⟩) :
    ∃ ph, keyContract.next t o r = .request (some k) ph ∧ ph.Held := by
  cases o with
  | redisSetNx k' v' =>
    cases t with
    | other => exact ha.elim
    | request key ph =>
      obtain ⟨rfl, -, rfl⟩ := ha
      rcases r with b | _
      · obtain ⟨rfl, rfl, -⟩ := hw
        exact ⟨.holds, rfl, trivial⟩
      · obtain ⟨rfl, -⟩ := hw
        exact ⟨.unsure, rfl, trivial⟩
  | redisSet k' v' =>
    obtain ⟨-, rfl⟩ := hw
    cases t <;> exact absurd rfl ha
  | _ => exact hw.elim

/-- A call keeps the invariant. -/
theorem call {collate : String → String} {t : KeyThread} {o : PipeOp} {c : Choice} {r : o.Res}
    (h : KeyInv ts s log) (hi : ts[i]? = some t) (ha : keyContract.allowed t o)
    (hx : Pipe.exec collate i o c s = some (r, s')) :
    KeyInv (ts.set i (keyContract.next t o r)) s' (log ++ [(i, ⟨o, r⟩)]) := by
  -- what the record of a request that is not fresh from here says, and what it said before
  have hback : ∀ key ph, keyContract.next t o r = .request key ph →
      ∃ ph₀, ts[i]? = some (.request key ph₀) ∧ ph₀.next ⟨o, r⟩ = ph := by
    intro key ph heq
    cases t with
    | other => cases heq
    | request key' ph₀ =>
      obtain ⟨rfl, rfl⟩ := KeyThread.request.inj heq
      exact ⟨ph₀, hi, rfl⟩
  refine ⟨fun d hd ↦ ?_, fun e he ↦ ?_, fun k j hj ↦ ?_, fun j key hj ↦ ?_, fun j key hj ↦ ?_,
    fun j key ph hj hph ↦ ?_⟩
  · rw [(arrivals_of_exec hx).1] at hd
    have hd' := h.others d hd
    by_cases hdi : d.1 = i
    · obtain rfl : t = .other := Option.some.inj (hi.symm.trans (hdi ▸ hd'))
      rw [hdi]
      exact Pool.getElem?_set_self hi
    · rwa [List.getElem?_set_ne fun e ↦ hdi e.symm]
  · rw [List.length_set]
    rcases List.mem_append.1 he with he | he
    · exact h.started e he
    · rw [List.mem_singleton.1 he]
      exact (List.getElem?_eq_some_iff.1 hi).1
  · rcases redis_of_exec hx hj.1 with ⟨hw, hwriter⟩ | ⟨hold, hwriter, hdel⟩
    · obtain rfl := Option.some.inj (hwriter.symm.trans hj.2)
      obtain ⟨ph, hnext, hheld⟩ := held_of_writes ha hw
      exact ⟨ph, hnext ▸ Pool.getElem?_set_self hi, hheld⟩
    · obtain ⟨ph, hph, hheld⟩ := h.holder k j ⟨hold, hwriter ▸ hj.2⟩
      by_cases hji : j = i
      · subst hji
        obtain rfl := Option.some.inj (hi.symm.trans hph)
        refine ⟨_, Pool.getElem?_set_self hi, KeyPhase.held_of_next hheld fun k' he ↦ hdel ?_⟩
        -- a request deletes no key but its own
        cases he
        obtain rfl : k = k' := Option.some.inj ha
        rfl
      · exact ⟨ph, by rwa [List.getElem?_set_ne fun e ↦ hji e.symm], hheld⟩
  · rcases Pool.getElem?_set_cases hj with ⟨rfl, heq⟩ | ⟨hji, hj⟩
    · rw [Machine.Record.of_append_self]
      obtain ⟨ph, hph, hnext⟩ := hback _ _ heq.symm
      rcases KeyPhase.excuses_of_next hnext with rfl | he
      · obtain ⟨e, he, hex⟩ := h.excuse j key hph
        exact ⟨e, List.mem_append_left _ he, hex⟩
      · exact ⟨_, List.mem_append_right _ (List.mem_singleton_self _), he⟩
    · rw [Machine.Record.of_append_ne fun e ↦ hji e.symm]
      exact h.excuse j key hj
  · rcases Pool.getElem?_set_cases hj with ⟨rfl, heq⟩ | ⟨hji, hj⟩
    · rw [Machine.Record.of_append_self, List.any_append]
      obtain ⟨ph, hph, hnext⟩ := hback _ _ heq.symm
      have hfresh : (ph.next ⟨o, r⟩).Fresh := hnext ▸ trivial
      rcases (KeyPhase.fresh_of_next hfresh).2.2 hnext with rfl | he
      · rw [h.unsure j key hph, Bool.true_or]
      · simp [he]
    · rw [Machine.Record.of_append_ne fun e ↦ hji e.symm]
      exact h.unsure j key hj
  · rcases Pool.getElem?_set_cases hj with ⟨rfl, heq⟩ | ⟨hji, hj⟩
    · rw [Machine.Record.of_append_self, List.any_append]
      obtain ⟨ph₀, hph₀, rfl⟩ := hback _ _ heq.symm
      obtain ⟨hfresh, hpub, -⟩ := KeyPhase.fresh_of_next hph
      simp [h.fresh j key ph₀ hph₀ hfresh, hpub]
    · rw [Machine.Record.of_append_ne fun e ↦ hji e.symm]
      exact h.fresh j key ph hj hph

/-- A thread that joins has done nothing yet. -/
theorem spawn {t : KeyThread} (h : KeyInv ts s log) (hredis : s'.redis = s.redis)
    (hwriter : s'.writer = s.writer) (ht : t = .other ∨ ∃ key, t = .request key .free)
    (hd : ∀ d ∈ s'.deliveries, d ∈ s.deliveries ∨ d.1 = ts.length ∧ t = .other) :
    KeyInv (ts ++ [t]) s' log := by
  refine ⟨fun d hd' ↦ ?_, fun e he ↦ ?_, fun k j hj ↦ ?_, fun j key hj ↦ ?_, fun j key hj ↦ ?_,
    fun j key ph hj hph ↦ ?_⟩
  · rcases hd d hd' with hold | ⟨hlen, rfl⟩
    · exact Pool.getElem?_append_of_some (h.others d hold)
    · rw [hlen]
      exact List.getElem?_concat_length
  · rw [List.length_append]
    exact Nat.lt_add_right _ (h.started e he)
  · obtain ⟨ph, hph, hheld⟩ := h.holder k j ⟨hredis ▸ hj.1, hwriter ▸ hj.2⟩
    exact ⟨ph, Pool.getElem?_append_of_some hph, hheld⟩
  · refine h.excuse j key (Pool.getElem?_of_append hj fun e ↦ ?_)
    rcases ht with rfl | ⟨_, rfl⟩ <;> cases e
  · refine h.unsure j key (Pool.getElem?_of_append hj fun e ↦ ?_)
    rcases ht with rfl | ⟨_, rfl⟩ <;> cases e
  · rcases Pool.getElem?_append_cases hj with ⟨rfl, -⟩ | ⟨-, hj⟩
    · rw [Machine.Record.of_eq_nil fun e he ↦ Nat.ne_of_lt (h.started e he)]
      rfl
    · exact h.fresh j key ph hj hph

theorem of_eq (h : KeyInv ts s log) (hredis : s'.redis = s.redis) (hwriter : s'.writer = s.writer)
    (hd : s'.deliveries = s.deliveries) : KeyInv ts s' log :=
  { h with
    others := fun d hd' ↦ h.others d (hd ▸ hd')
    holder := fun k i hi ↦ h.holder k i ⟨hredis ▸ hi.1, hwriter ▸ hi.2⟩ }

/-- Only the threads of deliveries crash. -/
theorem crash (h : KeyInv ts s log) (hredis : s'.redis = s.redis) (hwriter : s'.writer = s.writer)
    (hd : s'.deliveries = s.deliveries) (hi : i ∈ s.deliveries.map (·.1)) :
    KeyInv (ts.set i .other) s' log := by
  obtain ⟨d, hdi, rfl⟩ := List.mem_map.1 hi
  obtain ⟨hlt, heq⟩ := List.getElem?_eq_some_iff.1 (h.others d hdi)
  rw [← heq, List.set_getElem_self]
  exact h.of_eq hredis hwriter hd

/-- An event keeps the invariant, and every thread its contract. -/
theorem event {cfg : PipeConfig} {e : PipeEv} {p p' : PipePool} (h : KeyInv ts p.shared log)
    (hm : p.Meets keyContract KeyThread.Settled ts) (hx : Pipe.env cfg e p = some p') :
    ∃ ts', KeyInv ts' p'.shared log ∧ p'.Meets keyContract KeyThread.Settled ts' := by
  cases e with
  | request uid req =>
    obtain rfl := Option.some.inj hx
    exact ⟨_, h.spawn rfl rfl (.inr ⟨_, rfl⟩) fun d hd ↦ .inl hd,
      hm.spawn (sendMessage_frees cfg.transmite uid req) _⟩
  | deliver n =>
    simp only [Pipe.env] at hx
    split at hx
    · next d hn =>
      obtain rfl := Option.some.inj hx
      refine ⟨_, h.spawn rfl rfl (.inl rfl) fun d' hd ↦ ?_,
        hm.spawn (consume_takes_no_key cfg.message d.msg d.redelivered) _⟩
      rcases List.mem_append.1 hd with hd | hd
      · exact .inl hd
      · rw [List.mem_singleton.1 hd]
        exact .inr ⟨hm.length_eq, rfl⟩
    · cases hx
  | sync client rid uid cid limit =>
    obtain rfl := Option.some.inj hx
    exact ⟨_, h.spawn rfl rfl (.inl rfl) fun d hd ↦ .inl hd,
      hm.spawn (sync_call_takes_no_key client rid uid cid _ limit) _⟩
  | crash i =>
    simp only [Pipe.env] at hx
    split at hx
    · next hi =>
      obtain rfl := Option.some.inj hx
      exact ⟨_, h.crash rfl rfl rfl hi, hm.set i (q := .ret ()) (t := .other) trivial _⟩
    · cases hx
  | receive n | pushAccept n | pushConfirm n st =>
    simp only [Pipe.env] at hx
    repeat' split at hx
    all_goals cases hx
    all_goals exact ⟨ts, h.of_eq rfl rfl rfl, hm⟩
  | lose i | recallMessage mid | deleteMessage mid =>
    obtain rfl := Option.some.inj hx
    exact ⟨ts, h.of_eq rfl rfl rfl, hm⟩

theorem init : KeyInv [] {} [] := by
  refine ⟨fun d hd ↦ ?_, fun e he ↦ ?_, fun k i hi ↦ ?_, fun i key hi ↦ ?_, fun i key hi ↦ ?_,
    fun i key ph hi ↦ ?_⟩
  · cases hd
  · cases he
  · cases hi.1
  · cases hi
  · cases hi
  · cases hi

end KeyInv

/-- Nothing has happened yet, and nothing is on record. -/
abbrev Pipe.initRecorded : Pool PipeOp PipeOp.Res (Pipe × Machine.Record PipeOp PipeOp.Res) :=
  Machine.Recorded Pipe.init []

/-- **What every recorded run keeps.** -/
theorem key_invariant {cfg : PipeConfig}
    {p : Pool PipeOp PipeOp.Res (Pipe × Machine.Record PipeOp PipeOp.Res)}
    (hr : (pipeline cfg).recorded.Reach .any Pipe.initRecorded p) :
    ∃ ts, KeyInv ts p.shared.1 p.shared.2 ∧ p.Meets keyContract KeyThread.Settled ts := by
  refine Machine.recorded_invariant hr ⟨[], KeyInv.init, .nil⟩ ?_ ?_
  · intro ts s log i t o c r s' h hi ha hx
    exact ⟨trivial, h.call hi ha hx⟩
  · intro ts p log e p' h hm hx
    exact h.event hm hx

/-- The thread has returned. -/
def HasEnded {σ : Type} (p : Pool PipeOp PipeOp.Res σ) (i : ℕ) : Prop :=
  p.threads[i]?.map Prog.finished = some true

instance {σ : Type} (p : Pool PipeOp PipeOp.Res σ) (i : ℕ) : Decidable (HasEnded p i) :=
  inferInstanceAs (Decidable (_ = _))

/-- The request, on record, was acked by the broker. -/
def WasAcked (log : Machine.Record PipeOp PipeOp.Res) (i : ℕ) : Prop :=
  (Machine.Record.of i log).any PipeCall.acks = true

/-- Redis could not execute a deletion of the request. -/
def WasRefused (log : Machine.Record PipeOp PipeOp.Res) (i : ℕ) : Prop :=
  (Machine.Record.of i log).any PipeCall.delFails = true

/-- The `SET NX` of the request has thrown, and it has not published. -/
def WasUnsure (log : Machine.Record PipeOp PipeOp.Res) (i : ℕ) : Prop :=
  (Machine.Record.of i log).any PipeCall.takeFails = true ∧
    (Machine.Record.of i log).any PipeCall.publishes = false

/-- An exception left the handler of the request. -/
def WasLeft (log : Machine.Record PipeOp PipeOp.Res) (i : ℕ) : Prop :=
  (Machine.Record.of i log).any PipeCall.leaves = true

instance (log : Machine.Record PipeOp PipeOp.Res) (i : ℕ) : Decidable (WasAcked log i) :=
  inferInstanceAs (Decidable (_ = true))

instance (log : Machine.Record PipeOp PipeOp.Res) (i : ℕ) : Decidable (WasRefused log i) :=
  inferInstanceAs (Decidable (_ = true))

instance (log : Machine.Record PipeOp PipeOp.Res) (i : ℕ) : Decidable (WasUnsure log i) :=
  inferInstanceAs (Decidable (_ ∧ _))

instance (log : Machine.Record PipeOp PipeOp.Res) (i : ℕ) : Decidable (WasLeft log i) :=
  inferInstanceAs (Decidable (_ = true))

/-- **Every failing exit but an exception frees the key.** In every run: when a request has ended
that no exception has left, that was not acked, whose deletions Redis could execute, and whose
`SET NX` was answered or which went on to publish, no key holds its pending value. -/
theorem failing_exit_frees_key (cfg : PipeConfig)
    (p : Pool PipeOp PipeOp.Res (Pipe × Machine.Record PipeOp PipeOp.Res))
    (hr : (pipeline cfg).recorded.Reach .any Pipe.initRecorded p) (i : ℕ) (hend : HasEnded p i)
    (hack : ¬WasAcked p.shared.2 i) (hdel : ¬WasRefused p.shared.2 i)
    (hsure : ¬WasUnsure p.shared.2 i) (hleft : ¬WasLeft p.shared.2 i) (k : String) :
    ¬p.shared.1.PendingOf k i := by
  obtain ⟨ts, h, hm⟩ := key_invariant hr
  intro hpending
  obtain ⟨ph, hph, hheld⟩ := h.holder k i hpending
  obtain ⟨q, hq, hfin⟩ := Option.map_eq_some_iff.1 hend
  obtain ⟨t, ht, hmeets⟩ := hm.get hq
  obtain rfl := Option.some.inj (hph.symm.trans ht)
  cases q with
  | call o k => cases hfin
  | ret a =>
    have hsettled : ph ≠ .holds := hmeets
    cases ph with
    | free | spent => exact hheld
    | holds => exact hsettled rfl
    | unsure => exact hsure ⟨h.unsure i _ hph, h.fresh i _ _ hph trivial⟩
    | excused =>
      obtain ⟨e, he, hex⟩ := h.excuse i (some k) hph
      simp only [PipeCall.excuses, Bool.or_eq_true] at hex
      rcases hex with (hl | ha) | hd
      · exact hleft (List.any_eq_true.2 ⟨e, he, hl⟩)
      · exact hack (List.any_eq_true.2 ⟨e, he, ha⟩)
      · exact hdel (List.any_eq_true.2 ⟨e, he, hd⟩)

/-- The calls of alice's request, up to the one that asks for an id. -/
def upToId : List PipeLabel :=
  .event (.request "alice" (textTo "c1" "m1")) :: List.replicate 6 (.call 0 (smooth 0))

/-- Her publish is nacked, and the key she took is free again. -/
theorem failing_exit_frees_key_nacked :
    ∃ p, (pipeline {}).recorded.Reach .any Pipe.initRecorded p ∧ HasEnded p 0 ∧
      (Machine.Record.of 0 p.shared.2).any (PipeCall.takes (idempotency_key_for "alice" "m1")) ∧
      ¬p.shared.1.PendingOf (idempotency_key_for "alice" "m1") 0 := by
  obtain ⟨p, hp, htook, hend, hack, hdel, hsure, hleft⟩ := Machine.exists_of_run
    (pipeline {}).recorded .any Pipe.initRecorded
    (upToId ++ List.replicate 7 (.call 0 (smooth 0 .Nacked)))
    (fun p ↦
      (Machine.Record.of 0 p.shared.2).any (PipeCall.takes (idempotency_key_for "alice" "m1")) ∧
      HasEnded p 0 ∧ ¬WasAcked p.shared.2 0 ∧ ¬WasRefused p.shared.2 0 ∧
      ¬WasUnsure p.shared.2 0 ∧ ¬WasLeft p.shared.2 0)
    (by decide +kernel)
  exact ⟨p, hp, hend, htook, failing_exit_frees_key {} p hp 0 hend hack hdel hsure hleft _⟩

/-- The id generator throws: the request has ended without an ack, its pending value stays, and the
client's retry is turned away. -/
theorem exception_keeps_key :
    ∃ p, (pipeline {}).recorded.Reach .any Pipe.initRecorded p ∧
      HasEnded p 0 ∧ ¬WasAcked p.shared.2 0 ∧ ¬WasRefused p.shared.2 0 ∧
      p.shared.1.PendingOf (idempotency_key_for "alice" "m1") 0 ∧
      p.shared.1.replies.getLast?.map (fun e ↦ (e.1, e.2.header.error_message)) =
        some (1, "duplicate request in flight") :=
  Machine.exists_of_run (pipeline {}).recorded .any Pipe.initRecorded
    (upToId ++ [.call 0 { smooth 0 with stamp := none }, .call 0 (smooth 0),
      .event (.request "alice" (textTo "c1" "m1"))] ++ List.replicate 4 (.call 1 (smooth 1)))
    _ (by decide +kernel)

/-- Redis executes the `SET NX` and the answer is lost; the request is turned down at the limit, and
its error response leaves a key alone of which it does not know. -/
theorem unseen_key_is_kept :
    ∃ p, (pipeline {}).recorded.Reach .any Pipe.initRecorded p ∧
      HasEnded p 0 ∧ ¬WasAcked p.shared.2 0 ∧ ¬WasRefused p.shared.2 0 ∧ ¬WasLeft p.shared.2 0 ∧
      p.shared.1.PendingOf (idempotency_key_for "alice" "m1") 0 :=
  Machine.exists_of_run (pipeline {}).recorded .any Pipe.initRecorded
    [.event (.request "alice" (textTo "c1" "m1")),
      .call 0 { smooth 0 with fault := true, late := true },
      .call 0 { smooth 0 with allow := false }, .call 0 (smooth 0)]
    _ (by decide +kernel)

end ChatNow
