import ChatNow.Pipeline.Flow
import ChatNow.Pipeline.Idempotent

/-!
# Agreement on the id of a client message

Three stores know the id of a client message: the idempotency key, the broker, the message table. In
**every** run, whatever fails, an id that a request is told in a success response, and the id of
every stored row, is the id of a message that the broker has received and that concerns that client
message (`Vouched`). A message concerns it that has its key, or that the database takes for it: the
keys of Redis differ where their texts do, and the table compares by its collation (`Concerns`).

So they all agree as long as the broker receives no more than one such message (`oneReceived`,
`agreed_of_oneReceived`). The code does not see to that. A publish that is reported as `Lost` may
have been received; the callback deletes the key all the same, and the retry publishes a second
message under a new id. Which of the two the table keeps is decided by the order of the deliveries
(`lost_publish_disagrees`). And of two client messages that only the database takes for one, each
has a key of its own, while the table answers for both with one row (`collated_ids_disagree`).
-/

namespace ChatNow

open Prog PipeOp OnDBMessage

/-- The text of the idempotency key of a message. -/
def keyText (m : InternalMessage) : String :=
  idempotency_key_for m.message.sender_id m.message.client_msg_id

/-- The text of the idempotency key of a request. -/
def Sender.keyText (x : Sender) : String := idempotency_key_for x.uid x.req.client_msg_id

theorem Sender.key_eq_some {cfg : TransmiteConfig} {x : Sender} {k : String}
    (h : x.key cfg = some k) : k = x.keyText := by
  rw [Sender.key, sendKey] at h
  split at h
  · exact (Option.some.inj h).symm
  · cases h

theorem keyText_of_assembled {x : Sender} {m : InternalMessage} (h : Assembled x.uid x.req m) :
    ChatNow.keyText m = x.keyText := by
  rw [ChatNow.keyText, Sender.keyText, h.sender_id, h.client_msg_id]

/-- The message has the key of a client message, or the database takes it for that message. -/
def Concerns (collate : String → String) (uid client_msg_id : String) (m : InternalMessage) :
    Prop :=
  keyText m = idempotency_key_for uid client_msg_id ∨ m.message.client_msg_id ≠ "" ∧
    collate m.message.sender_id = collate uid ∧
    collate m.message.client_msg_id = collate client_msg_id

instance (collate : String → String) (uid client_msg_id : String) :
    DecidablePred (Concerns collate uid client_msg_id) :=
  fun _ ↦ inferInstanceAs (Decidable (_ ∨ _))

/-- The messages that concern the client message of a request. -/
def Sender.Concerned (collate : String → String) (x : Sender) (m : InternalMessage) : Prop :=
  Concerns collate x.uid x.req.client_msg_id m

/-- The broker has received a message of the given kind with this id. -/
def Pipe.HasId (s : Pipe) (P : InternalMessage → Prop) (id : Int64) : Prop :=
  ∃ m, s.Has m ∧ P m ∧ m.message.message_id = id

/-- A value that may stand under a key: `pending`, or the id of a message received for it. -/
def Pipe.Backs (s : Pipe) (key value : String) : Prop :=
  value = SendMessage.pending ∨ ∃ m, s.Has m ∧ keyText m = key ∧
    0 < m.message.message_id.toUInt64.toNat ∧
    (value = acceptedValue m.message ∨ value = persistedValue m.message)

theorem Pipe.HasId.mono {s s' : Pipe} {P : InternalMessage → Prop} {id : Int64} (h : s.HasId P id)
    (hmono : ∀ m, s.Has m → s'.Has m) : s'.HasId P id := by
  obtain ⟨m, hm, hP, hid⟩ := h
  exact ⟨m, hmono m hm, hP, hid⟩

theorem Pipe.Backs.mono {s s' : Pipe} {key value : String} (h : s.Backs key value)
    (hmono : ∀ m, s.Has m → s'.Has m) : s'.Backs key value := by
  rcases h with h | ⟨m, hm, h⟩
  · exact .inl h
  · exact .inr ⟨m, hmono m hm, h⟩

/-- Every id that is stored under a key, or that a request has been told, is the id of a message
that the broker has received, with that key or for that request. -/
structure Vouched (collate : String → String) (f : ℕ → Option Sender) (s : Pipe) : Prop where
  value : ∀ k v, s.redis k = some v → s.Backs k v
  phase : ∀ i x id, f i = some x → x.ph.Vouches id → s.HasId (x.Concerned collate) id
  request : ∀ i uid req, (i, uid, req) ∈ s.requests → ∃ ph, f i = some ⟨uid, req, ph⟩
  reply : ∀ i rsp, (i, rsp) ∈ s.replies → rsp.header.success = true →
    ∃ x m, f i = some x ∧ rsp.message = some m ∧ s.HasId (x.Concerned collate) m.message_id

/-! ### Reading an id -/

section Reading

variable {collate : String → String} {s : Pipe}

theorem id_of_toNat (id : Int64) : (UInt64.ofNat id.toUInt64.toNat).toInt64 = id := by
  rw [UInt64.ofNat_toNat, Int64.toInt64_toUInt64]

/-- What is read under a key is vouched for by the broker. -/
theorem hasId_of_ofCached {k : String} {cached : Option String} {id : Int64}
    (hv : ∀ v, cached = some v → s.Backs k v) (h : (SendPhase.ofCached cached).Vouches id) :
    s.HasId (keyText · = k) id := by
  cases cached with
  | none =>
    have hno : SendPhase.ofCached none = .sawPending := rfl
    rw [hno] at h
    exact False.elim h
  | some v =>
    rcases hv v rfl with rfl | ⟨m, hm, hk, hpos, rfl | rfl⟩
    · have hno : SendPhase.ofCached (some SendMessage.pending) = .sawPending := by
        simp [SendPhase.ofCached, SendMessage.cached_state, SendMessage.pending, SendPhase.ofState]
      rw [hno] at h
      exact False.elim h
    · rw [ofCached_accepted hpos] at h
      exact ⟨m, hm, hk, ((id_of_toNat _).symm.trans h.symm)⟩
    · rw [ofCached_persisted hpos] at h
      exact ⟨m, hm, hk, ((id_of_toNat _).symm.trans h.symm)⟩

/-- What the table answers for a client message is vouched for by the broker. -/
theorem hasId_of_row {x : Sender} {row : MessageRow}
    (hrows : ∀ r ∈ s.rows, ∃ m, s.Has m ∧ RowFrom m.message r)
    (h : select_by_client_msg collate s.rows x.uid x.req.client_msg_id = some row) :
    s.HasId (x.Concerned collate) (convert_db_message_to_proto_ row).message_id := by
  rw [select_by_client_msg] at h
  split at h
  · cases h
  · obtain ⟨m, hm, hfrom⟩ := hrows row (List.mem_of_find?_eq_some h)
    have hrow := List.find?_some h
    simp only [decide_eq_true_eq] at hrow
    obtain ⟨hne, hcm⟩ : m.message.client_msg_id ≠ "" ∧
        collate m.message.client_msg_id = collate x.req.client_msg_id := by
      have hmap := hrow.2
      rw [hfrom.client_msg_id] at hmap
      split at hmap
      · cases hmap
      · next hne => exact ⟨hne, Option.some.inj hmap⟩
    refine ⟨m, hm, .inr ⟨hne, ?_, hcm⟩, ?_⟩
    · rw [← hfrom.user_id]
      exact hrow.1
    · show m.message.message_id = row.message_id.toInt64
      rw [hfrom.message_id, Int64.toInt64_toUInt64]

end Reading

theorem sendStart_not_vouches (cfg : TransmiteConfig) (client_msg_id : String) (id : Int64) :
    ¬ (sendStart cfg client_msg_id).Vouches id := by
  rw [sendStart]
  split <;> exact not_false

/-! ### One move -/

section Calls

variable {collate : String → String} {cfg : TransmiteConfig} {f : ℕ → Option Sender} {i : ℕ}
  {x : Sender} {ph' : SendPhase} {o : PipeOp} {c : Choice} {s s' : Pipe}

/-- A request that has been acked has a message that the broker has received. -/
theorem Tracked.has_of_acked (ht : Tracked f s.wire) (hi : f i = some x) {own : Bool}
    {msg : InternalMessage} (hph : x.ph = .acked own msg) :
    s.Has msg ∧ Assembled x.uid x.req msg := by
  have hp : x.ph.published = some msg := by
    rw [hph]
    rfl
  obtain ⟨e, he, -, hmsg, hasm, htr⟩ := ht.exists_entry hi hp
  rw [hph] at htr
  exact ⟨⟨e, he, htr.2.2, hmsg⟩, hasm⟩

/-- What a request writes under its key is backed. -/
theorem Vouched.value_call (h : Vouched collate f s) (ht : Tracked f s.wire) (hi : f i = some x)
    (hm : SendMove collate (x.key cfg) x.uid x.req i o c x.ph s ph' s') (k : String) (v : String)
    (hv : s'.redis k = some v) : s'.Backs k v := by
  have hmono : ∀ m, s.Has m → s'.Has m := fun m ↦ hm.has_mono
  have hkeep : s'.redis = s.redis → s'.Backs k v := by
    intro hr
    rw [hr] at hv
    exact (h.value k v hv).mono hmono
  have hset : ∀ k' v', s'.redis = Function.update s.redis k' v' →
      (∀ w, v' = some w → s'.Backs k' w) → s'.Backs k v := by
    intro k' v' hr hback
    rw [hr] at hv
    rcases eq_or_ne k k' with rfl | hne
    · rw [Function.update_self] at hv
      exact hback v hv
    · rw [Function.update_of_ne hne] at hv
      exact (h.value k v hv).mono hmono
  have hacked : ∀ own msg, x.ph = .acked own msg → ∀ k, x.key cfg = some k →
      s.Backs k (acceptedValue msg.message) := by
    intro own msg hph k hk
    obtain ⟨hmsg, hasm⟩ := ht.has_of_acked hi hph
    refine .inr ⟨msg, hmsg, ?_, hasm.id_pos, .inl rfl⟩
    rw [Sender.key_eq_some hk]
    exact keyText_of_assembled hasm
  generalize hph : x.ph = ph at hm hacked
  cases hm with
  | take | takeUnseen =>
    refine hset _ _ rfl fun w hw ↦ .inl ?_
    exact (Option.some.inj hw).symm
  | @accept k' _ _ own msg hk =>
    refine hset k' _ rfl fun w hw ↦ ?_
    obtain rfl := Option.some.inj hw
    exact (hacked own msg rfl k' hk).mono hmono
  | clear | giveUp | giveUpUnseen | fail | failUnseen =>
    refine hset _ none rfl fun w hw ↦ ?_
    cases hw
  | quiet hs =>
    obtain ⟨_, _, _, rfl⟩ := hs
    exact hkeep rfl
  | _ => exact hkeep rfl

/-- What a request comes to vouch for, the broker has received. -/
theorem Vouched.phase_call (h : Vouched collate f s) (ht : Tracked f s.wire)
    (hrows : ∀ r ∈ s.rows, ∃ m, s.Has m ∧ RowFrom m.message r) (hi : f i = some x)
    (hm : SendMove collate (x.key cfg) x.uid x.req i o c x.ph s ph' s') (id : Int64)
    (hv : ph'.Vouches id) : s.HasId (x.Concerned collate) id := by
  have hkeep : ph' = x.ph → s.HasId (x.Concerned collate) id := by
    rintro rfl
    exact h.phase i x id hi hv
  have hacked : ∀ e ∈ s.wire, e.tid = i → e.received = true → ∀ own msg,
      x.ph = .inflight own msg → ph' = .acked own msg → s.HasId (x.Concerned collate) id := by
    rintro e he htid hr own msg hph rfl
    obtain ⟨y, hy, hasm, htr⟩ := ht.entry e he
    rw [htid] at hy
    obtain rfl := Option.some.inj (hi.symm.trans hy)
    rw [hph] at htr
    obtain rfl := htr.1
    exact ⟨e.msg, ⟨e, he, hr, rfl⟩, .inl (keyText_of_assembled hasm), hv.symm⟩
  generalize hph : x.ph = ph at hm hkeep hacked
  cases hm with
  | refuse _ hp =>
    rcases hp with ⟨-, rfl⟩ | ⟨-, rfl⟩
    · exact False.elim hv
    · exact False.elim hv
  | @look k _ _ hk =>
    obtain ⟨m, hm, hkey, hid⟩ := hasId_of_ofCached (h.value k) hv
    exact ⟨m, hm, .inl (hkey.trans (Sender.key_eq_some hk)), hid⟩
  | find _ hrow =>
    obtain rfl : id = _ := hv
    exact hasId_of_row hrows hrow
  | ack he htid hr => exact hacked _ he htid hr _ _ rfl rfl
  | accept | reply | quiet => exact hkeep rfl
  | _ => exact False.elim hv

/-- A move of a request records no request, and at most a response that the request can vouch
for. -/
theorem SendMove.records {key : Option String} {uid : String} {req : SendMessageReq}
    {ph : SendPhase} (hm : SendMove collate key uid req i o c ph s ph' s') :
    s'.requests = s.requests ∧ ∀ r ∈ s'.replies, r ∈ s.replies ∨ r.1 = i ∧
      (r.2.header.success = true → ∃ m, r.2.message = some m ∧ ph.Vouches m.message_id) := by
  cases hm with
  | reply hrsp =>
    refine ⟨rfl, fun r hr ↦ ?_⟩
    rcases List.mem_append.1 hr with hr | hr
    · exact .inl hr
    · obtain rfl := List.mem_singleton.1 hr
      exact .inr ⟨rfl, hrsp⟩
  | quiet hs =>
    obtain ⟨_, _, _, rfl⟩ := hs
    exact ⟨rfl, fun r ↦ .inl⟩
  | _ => exact ⟨rfl, fun r ↦ .inl⟩

end Calls

namespace Vouched

variable {collate : String → String} {cfg : PipeConfig} {G : PipeGuard} {ts : List Thread}
  {f f' : ℕ → Option Sender} {s s' : Pipe}

/-- A request stays the request it is. -/
theorem keep_of_update {i : ℕ} {x : Sender} (hi : f i = some x) (ph' : SendPhase) {j : ℕ}
    {y : Sender} (hj : f j = some y) :
    ∃ ph, Function.update f i (some { x with ph := ph' }) j = some { y with ph := ph } := by
  rcases eq_or_ne j i with rfl | hne
  · obtain rfl := Option.some.inj (hi.symm.trans hj)
    exact ⟨ph', Function.update_self ..⟩
  · exact ⟨y.ph, (Function.update_of_ne hne ..).trans hj⟩

/-- A move that takes in no request and sends no response. -/
theorem of_records (h : Vouched collate f s) (hmono : ∀ m, s.Has m → s'.Has m)
    (hv : ∀ k v, s'.redis k = some v → s'.Backs k v) (hs : s.SameRecords s') :
    Vouched collate f s' := by
  refine ⟨hv, fun i x id hi hph ↦ (h.phase i x id hi hph).mono hmono, ?_, ?_⟩
  · rw [hs.requests]
    exact h.request
  · rw [hs.replies]
    intro i rsp hmem hok
    obtain ⟨x, m, hx, hm, hid⟩ := h.reply i rsp hmem hok
    exact ⟨x, m, hx, hm, hid.mono hmono⟩

theorem value_of_eq (h : Vouched collate f s) (hmono : ∀ m, s.Has m → s'.Has m)
    (hr : s'.redis = s.redis) (k v : String) (hv : s'.redis k = some v) : s'.Backs k v := by
  rw [hr] at hv
  exact (h.value k v hv).mono hmono

/-- A move of a request. -/
theorem call {i : ℕ} {x : Sender} {ph' : SendPhase} {o : PipeOp} {c : Choice}
    {tcfg : TransmiteConfig} (h : Vouched collate f s) (ht : Tracked f s.wire)
    (hrows : ∀ r ∈ s.rows, ∃ m, s.Has m ∧ RowFrom m.message r) (hi : f i = some x)
    (hm : SendMove collate (x.key tcfg) x.uid x.req i o c x.ph s ph' s') :
    Vouched collate (Function.update f i (some { x with ph := ph' })) s' := by
  have hmono : ∀ m, s.Has m → s'.Has m := fun m ↦ hm.has_mono
  obtain ⟨hreq, hrep⟩ := hm.records
  refine ⟨h.value_call ht hi hm, fun j y id hj hv ↦ ?_, fun j uid req hj ↦ ?_,
    fun j rsp hj hok ↦ ?_⟩
  · rcases eq_or_ne j i with rfl | hne
    · rw [Function.update_self] at hj
      obtain rfl := Option.some.inj hj
      exact (h.phase_call ht hrows hi hm id hv).mono hmono
    · rw [Function.update_of_ne hne] at hj
      exact (h.phase j y id hj hv).mono hmono
  · rw [hreq] at hj
    obtain ⟨ph, hph⟩ := h.request j uid req hj
    exact keep_of_update hi ph' hph
  · rcases hrep _ hj with hj | ⟨rfl, hvouch⟩
    · obtain ⟨y, m, hy, hm, hid⟩ := h.reply j rsp hj hok
      obtain ⟨ph, hph⟩ := keep_of_update hi ph' hy
      exact ⟨_, m, hph, hm, hid.mono hmono⟩
    · obtain ⟨m, hm, hv⟩ := hvouch hok
      exact ⟨_, m, Function.update_self .., hm, (h.phase _ x _ hi hv).mono hmono⟩

/-- Everything said stays vouched for, through every move. -/
theorem step (h : Vouched cfg.collate (senders ts) s) (ht : Tracked (senders ts) s.wire)
    (hf : Flow ts s) (hm : SenderMove cfg G ts s f' s') : Vouched cfg.collate f' s' := by
  have hmono : ∀ m, s.Has m → s'.Has m := fun m ↦ hm.has_mono
  cases hm with
  | call hi _ hm => exact h.call ht hf.rows hi hm
  | @request i _ uid req hi hw hr hq hp =>
    have hold : ∀ j y, senders ts j = some y → Function.update (senders ts) i
        (some ⟨uid, req, sendStart cfg.transmite req.client_msg_id⟩) j = some y := by
      intro j y hj
      have hne : j ≠ i := by
        rintro rfl
        rw [hi] at hj
        cases hj
      rw [Function.update_of_ne hne]
      exact hj
    refine ⟨h.value_of_eq hmono hr, fun j y id hj hv ↦ ?_, fun j uid' req' hj ↦ ?_,
      fun j rsp hj hok ↦ ?_⟩
    · rcases eq_or_ne j i with rfl | hne
      · rw [Function.update_self] at hj
        obtain rfl := Option.some.inj hj
        exact False.elim (sendStart_not_vouches _ _ _ hv)
      · rw [Function.update_of_ne hne] at hj
        exact (h.phase j y id hj hv).mono hmono
    · rw [hq] at hj
      rcases List.mem_append.1 hj with hj | hj
      · obtain ⟨ph, hph⟩ := h.request j uid' req' hj
        exact ⟨ph, hold j _ hph⟩
      · obtain ⟨rfl, rfl, rfl⟩ : j = i ∧ uid' = uid ∧ req' = req := by simpa using hj
        exact ⟨_, Function.update_self ..⟩
    · rw [hp] at hj
      obtain ⟨y, m, hy, hm, hid⟩ := h.reply j rsp hj hok
      exact ⟨y, m, hold j y hy, hm, hid.mono hmono⟩
  | receive _ _ _ _ _ hr hs => exact h.of_records hmono (h.value_of_eq hmono hr) hs
  | @mark i d _ hi hc hid hw hr hs =>
    refine h.of_records hmono (fun k v hv ↦ ?_) hs
    rw [hr] at hv
    change Function.update s.redis (keyText d.msg) _ k = some v at hv
    rcases eq_or_ne k (keyText d.msg) with rfl | hne
    · rw [Function.update_self] at hv
      obtain rfl := Option.some.inj hv
      exact .inr ⟨_, hmono _ (hf.handler _ _ _ hi), rfl, toNat_pos hid, .inr rfl⟩
    · rw [Function.update_of_ne hne] at hv
      exact (h.value k v hv).mono hmono
  | other _ hr hs => exact h.of_records hmono (h.value_of_eq hmono hr) hs

end Vouched

/-! ### One message of a kind -/

/-- The broker receives a publish of a message of the given kind only when it has received no
other. -/
def oneReceived (P : InternalMessage → Prop) : PipeGuard where
  onOp _ _ _ _ := True
  onEv
    | .receive n, p => ∀ e ∈ p.shared.wire[n]?, P e.msg →
      ∀ e' ∈ p.shared.wire, e'.received = true → ¬P e'.msg
    | _, _ => True

/-- The broker has received at most one message of the given kind. -/
def AtMostOne (P : InternalMessage → Prop) (s : Pipe) : Prop :=
  ∀ m m', s.Has m → s.Has m' → P m → P m' → m = m'

/-- A request moves, and the broker has what it had. -/
theorem has_of_send {collate : String → String} {key : Option String} {uid : String}
    {req : SendMessageReq} {i : ℕ} {o : PipeOp} {c : Choice} {ph ph' : SendPhase} {s s' : Pipe}
    {m : InternalMessage} (hm : SendMove collate key uid req i o c ph s ph' s') (h : s'.Has m) :
    s.Has m := by
  have hmap : ∀ g : Posted → Posted,
      (∀ e, (g e).received = e.received ∧ (g e).msg = e.msg) →
      s'.wire = (s.wire.map fun e ↦ if e.tid = i then g e else e) → s.Has m := by
    intro g hg hw
    obtain ⟨e', he', hr, rfl⟩ := h
    rw [hw] at he'
    obtain ⟨e, he, rfl⟩ := List.mem_map.1 he'
    split at hr
    · next htid =>
      rw [if_pos htid]
      exact ⟨e, he, (hg e).1 ▸ hr, (hg e).2.symm⟩
    · next htid =>
      rw [if_neg htid]
      exact ⟨e, he, hr, rfl⟩
  have hpost : ∀ e : Posted, e.received = false → s'.wire = s.wire ++ [e] → s.Has m := by
    intro e hnew hw
    obtain ⟨e', he', hr, rfl⟩ := h
    rw [hw] at he'
    rcases List.mem_append.1 he' with he' | he'
    · exact ⟨e', he', hr, rfl⟩
    · obtain rfl := List.mem_singleton.1 he'
      rw [hnew] at hr
      cases hr
  cases hm with
  | clear | giveUp | giveUpUnseen | fail | failUnseen =>
    exact hmap (fun e ↦ { e with released := true }) (fun _ ↦ ⟨rfl, rfl⟩) rfl
  | ack => exact hmap (fun e ↦ { e with reported := some .Acked }) (fun _ ↦ ⟨rfl, rfl⟩) rfl
  | @nack _ _ _ _ st _ =>
    exact hmap (fun e ↦ { e with reported := some st }) (fun _ ↦ ⟨rfl, rfl⟩) rfl
  | publish | publishThrow => exact hpost _ rfl rfl
  | quiet hs =>
    obtain ⟨_, _, _, rfl⟩ := hs
    exact h
  | _ => exact h

/-- Under the guard the broker never has a second message of the kind. -/
theorem AtMostOne.step {cfg : PipeConfig} {P : InternalMessage → Prop} {ts : List Thread}
    {f' : ℕ → Option Sender} {s s' : Pipe} (h : AtMostOne P s)
    (hm : SenderMove cfg (oneReceived P) ts s f' s') : AtMostOne P s' := by
  have hkeep : (∀ m, s'.Has m → s.Has m) → AtMostOne P s' := by
    intro hback m m' hm hm'
    exact h m m' (hback m hm) (hback m' hm')
  cases hm with
  | call _ _ hm => exact hkeep fun m ↦ has_of_send hm
  | request _ _ _ hw _ _ _ => exact hkeep fun m hm ↦ hm.of_wire hw.symm
  | mark _ _ _ hw _ _ => exact hkeep fun m hm ↦ hm.of_wire hw.symm
  | other hw _ _ => exact hkeep fun m hm ↦ hm.of_wire hw.symm
  | @receive n e p _ hG hp hn hnew hw _ _ =>
    have hback : ∀ m, s'.Has m → s.Has m ∨ m = e.msg := by
      rintro m ⟨e', he', hr, rfl⟩
      rw [hw] at he'
      rcases List.mem_or_eq_of_mem_set he' with he' | rfl
      · exact .inl ⟨e', he', hr, rfl⟩
      · exact .inr rfl
    have hfirst : P e.msg → ∀ m, s.Has m → ¬P m := by
      rintro he m ⟨e', he', hr, rfl⟩
      rw [← hp] at he' hn
      exact hG e hn he e' he' hr
    intro m m' hm hm' hk hk'
    rcases hback m hm with hm | rfl
    · rcases hback m' hm' with hm' | rfl
      · exact h m m' hm hm' hk hk'
      · exact absurd hk (hfirst hk' m hm)
    · rcases hback m' hm' with hm' | rfl
      · exact absurd hk' (hfirst hk m' hm')
      · rfl

/-! ### The result -/

/-- There is one id such that every success response for the client message carries it, and so does
every row stored for it. -/
def Agreed (uid client_msg_id : String) (s : Pipe) : Prop :=
  ∃ id : Int64,
    (∀ i req rsp, (i, uid, req) ∈ s.requests → req.client_msg_id = client_msg_id →
      (i, rsp) ∈ s.replies → rsp.header.success = true →
      rsp.message.map (·.message_id) = some id) ∧
    ∀ r ∈ s.rows, r.user_id = uid → r.client_msg_id.getD "" = client_msg_id →
      r.message_id = id.toUInt64

/-- What the pipeline keeps, in every run and under the guard. -/
def AgreementInv (collate : String → String) (P : InternalMessage → Prop) (ts : List Thread)
    (s : Pipe) : Prop :=
  Handlers ts s ∧ Tracked (senders ts) s.wire ∧ Flow ts s ∧ Vouched collate (senders ts) s ∧
    AtMostOne P s

theorem agreementInv_init (collate : String → String) (P : InternalMessage → Prop) :
    AgreementInv collate P [] {} := by
  refine ⟨?_, ⟨?_, ?_, ?_⟩, ⟨?_, ?_, ?_⟩, ⟨?_, ?_, ?_, ?_⟩, ?_⟩ <;>
    simp [Handlers, senders_nil, AtMostOne, Pipe.Has, Pipe.InTransit]

theorem agreementInv_step {cfg : PipeConfig} {P : InternalMessage → Prop} {ts ts' : List Thread}
    {s s' : Pipe} (h : AgreementInv cfg.collate P ts s)
    (hm : Move cfg (oneReceived P) ts s ts' s') : AgreementInv cfg.collate P ts' s' := by
  obtain ⟨hh, ht, hf, hv, hone⟩ := h
  have hs := hm.onSenders hh
  exact ⟨hh.step hm, ht.step hs, hf.step hh hm, hv.step ht hf hs, hone.step hs⟩

/-- **Agreement.** In every run in which the broker receives at most one publish that concerns a
client message, all success responses for it and all rows stored for it carry one id. -/
theorem agreed_of_oneReceived (cfg : PipeConfig) (uid client_msg_id : String) (p : PipePool)
    (hr : (pipeline cfg).Reach (oneReceived (Concerns cfg.collate uid client_msg_id)) Pipe.init
      p) : Agreed uid client_msg_id p.shared := by
  obtain ⟨ts, ⟨-, -, hf, hv, hone⟩, -⟩ :=
    pipeline_invariant hr (agreementInv_init _ _) agreementInv_step
  -- the id is that of the message the broker has, if there is one
  obtain ⟨id, hid⟩ : ∃ id : Int64, ∀ m, p.shared.Has m →
      Concerns cfg.collate uid client_msg_id m → m.message.message_id = id := by
    by_cases hex : ∃ m, p.shared.Has m ∧ Concerns cfg.collate uid client_msg_id m
    · obtain ⟨m, hm, hk⟩ := hex
      refine ⟨m.message.message_id, fun m' hm' hk' ↦ ?_⟩
      rw [hone m' m hm' hm hk' hk]
    · exact ⟨0, fun m hm hk ↦ absurd ⟨m, hm, hk⟩ hex⟩
  refine ⟨id, fun i req rsp hreq hc hrep hok ↦ ?_, fun r hmem hu hc ↦ ?_⟩
  · obtain ⟨ph, hph⟩ := hv.request i uid req hreq
    obtain ⟨x, m, hx, hm, m', hm', hk', hid'⟩ := hv.reply i rsp hrep hok
    obtain rfl := Option.some.inj (hph.symm.trans hx)
    have hk : Concerns cfg.collate uid client_msg_id m' := hc ▸ hk'
    rw [hm, Option.map_some, ← hid', hid m' hm' hk]
  · obtain ⟨m, hm, hfrom⟩ := hf.rows r hmem
    have hcm : m.message.client_msg_id = client_msg_id := by
      rw [← hc, hfrom.client_msg_id]
      split
      · next h => exact h
      · rfl
    have hk : keyText m = idempotency_key_for uid client_msg_id := by
      rw [keyText, ← hfrom.user_id, hu, hcm]
    rw [hfrom.message_id, hid m hm (.inl hk)]

/-- The request with the given thread was told success, with the given id. -/
def Told (s : Pipe) (i : ℕ) (uid client_msg_id : String) (id : Int64) : Prop :=
  (∃ q ∈ s.requests, q.1 = i ∧ q.2.1 = uid ∧ q.2.2.client_msg_id = client_msg_id) ∧
    ∃ r ∈ s.replies, r.1 = i ∧ r.2.header.success = true ∧ r.2.message.map (·.message_id) = some id

/-- The message is stored under the given id. -/
def Stored (s : Pipe) (uid client_msg_id : String) (id : UInt64) : Prop :=
  ∃ r ∈ s.rows, r.user_id = uid ∧ r.client_msg_id.getD "" = client_msg_id ∧ r.message_id = id

instance (s : Pipe) (i : ℕ) (uid client_msg_id : String) (id : Int64) :
    Decidable (Told s i uid client_msg_id id) :=
  inferInstanceAs (Decidable ((∃ q ∈ s.requests, _) ∧ ∃ r ∈ s.replies, _))

instance (s : Pipe) (uid client_msg_id : String) (id : UInt64) :
    Decidable (Stored s uid client_msg_id id) :=
  inferInstanceAs (Decidable (∃ r ∈ s.rows, _))

instance (P : InternalMessage → Prop) (i : ℕ) (o : PipeOp) (c : Choice) (s : Pipe) :
    Decidable ((oneReceived P).onOp i o c s) := .isTrue trivial

instance (P : InternalMessage → Prop) [DecidablePred P] (e : PipeEv) (p : PipePool) :
    Decidable ((oneReceived P).onEv e p) :=
  match e with
  | .receive n => inferInstanceAs (Decidable (∀ e ∈ p.shared.wire[n]?, _ → ∀ e' ∈ p.shared.wire, _))
  | .request _ _ | .deliver _ | .lose _ | .crash _ | .pushAccept _ | .pushConfirm _ _
  | .sync _ _ _ _ _ | .recallMessage _ | .deleteMessage _ => .isTrue trivial

/-- Alice's message is acked and stored, and then she sends it once more. -/
def sentTwice : List PipeLabel :=
  .event (.request "alice" (textTo "c1" "m1")) :: List.replicate 10 (.call 0 (smooth 0)) ++
  .event (.receive 0) :: List.replicate 3 (.call 0 (smooth 0)) ++
  .event (.deliver 0) :: List.replicate 2 (.call 1 (smooth 0)) ++
  .event (.request "alice" (textTo "c1" "m1")) :: List.replicate 4 (.call 2 (smooth 1))

theorem agreed_sentTwice :
    ∃ p, (pipeline {}).Reach (oneReceived (Concerns id "alice" "m1")) Pipe.init p ∧
      (Told p.shared 0 "alice" "m1" 4194304 ∧ Told p.shared 2 "alice" "m1" 4194304 ∧
        Stored p.shared "alice" "m1" 4194304) ∧ Agreed "alice" "m1" p.shared := by
  obtain ⟨p, hp, htold⟩ := Machine.exists_of_run (pipeline {})
    (oneReceived (Concerns id "alice" "m1")) Pipe.init sentTwice
    (fun p ↦ Told p.shared 0 "alice" "m1" 4194304 ∧ Told p.shared 2 "alice" "m1" 4194304 ∧
      Stored p.shared "alice" "m1" 4194304) (by decide)
  exact ⟨p, hp, htold, agreed_of_oneReceived {} "alice" "m1" p hp⟩

/-! ### A lost publish -/

/-- Alice's publish is reported as lost after the broker has received it. Her retry is published,
received and acked, and then the first message is delivered and stored. -/
def lostThenRetried : List PipeLabel :=
  .event (.request "alice" (textTo "c1" "m1")) :: List.replicate 10 (.call 0 (smooth 0)) ++
  .event (.receive 0) :: List.replicate 3 (.call 0 (smooth 0 .Lost)) ++
  .event (.request "alice" (textTo "c1" "m1")) :: List.replicate 10 (.call 1 (smooth 1)) ++
  .event (.receive 1) :: List.replicate 3 (.call 1 (smooth 1)) ++
  [.event (.deliver 0), .call 2 (smooth 0)]

/-- Alice is told one id, and her message is stored under another. -/
theorem lost_publish_disagrees :
    ∃ p, (pipeline {}).Reach noRedisFault Pipe.init p ∧ ¬ Agreed "alice" "m1" p.shared := by
  obtain ⟨p, hp, ⟨hreq, hrep⟩, hrow⟩ := Machine.exists_of_run (pipeline {}) noRedisFault Pipe.init
    lostThenRetried
    (fun p ↦ Told p.shared 1 "alice" "m1" 4194305 ∧ Stored p.shared "alice" "m1" 4194304)
    (by decide)
  refine ⟨p, hp, ?_⟩
  rintro ⟨id, hids, hrows⟩
  obtain ⟨⟨i, uid, req⟩, hq, rfl, rfl, hc⟩ := hreq
  obtain ⟨⟨j, rsp⟩, hr, rfl, hok, hid⟩ := hrep
  obtain ⟨row, hrow, hu, hcm, hmid⟩ := hrow
  have htold : some id = some 4194305 := (hids _ req rsp hq hc hr hok).symm.trans hid
  have hstored : (4194304 : UInt64) = id.toUInt64 := hmid.symm.trans (hrows row hrow hu hcm)
  rw [Option.some.inj htold] at hstored
  exact absurd hstored (by decide)

/-! ### One row for two client messages -/

/-- Alice's `m1` is acked and stored. Her `M1` is acked under another id, and when she sends it once
more, the table is asked for its row. -/
def sentInCapitals : List PipeLabel :=
  .event (.request "alice" (textTo "c1" "m1")) :: List.replicate 10 (.call 0 (smooth 0)) ++
  .event (.receive 0) :: List.replicate 3 (.call 0 (smooth 0)) ++
  .event (.deliver 0) :: List.replicate 2 (.call 1 (smooth 0)) ++
  .event (.request "alice" (textTo "c1" "M1")) :: List.replicate 10 (.call 2 (smooth 1)) ++
  .event (.receive 1) :: List.replicate 3 (.call 2 (smooth 1)) ++
  .event (.request "alice" (textTo "c1" "M1")) :: List.replicate 4 (.call 3 (smooth 2))

/-- Where the database takes `M1` for `m1`, alice is told two ids for it. -/
theorem collated_ids_disagree :
    ∃ p, (pipeline { collate := fun t ↦ if t = "M1" then "m1" else t }).Reach noRedisFault
      Pipe.init p ∧ ¬ Agreed "alice" "M1" p.shared := by
  obtain ⟨p, hp, ⟨hreq, hrep⟩, hreq', hrep'⟩ := Machine.exists_of_run
    (pipeline { collate := fun t ↦ if t = "M1" then "m1" else t }) noRedisFault Pipe.init
    sentInCapitals
    (fun p ↦ Told p.shared 2 "alice" "M1" 4194305 ∧ Told p.shared 3 "alice" "M1" 4194304)
    (by decide)
  refine ⟨p, hp, ?_⟩
  rintro ⟨id, hids, -⟩
  have hone : ∀ {i id'}, Told p.shared i "alice" "M1" id' → id = id' := by
    rintro i id' ⟨⟨⟨i, uid, req⟩, hq, rfl, rfl, hc⟩, ⟨j, rsp⟩, hr, rfl, hok, hid⟩
    exact Option.some.inj ((hids _ req rsp hq hc hr hok).symm.trans hid)
  exact absurd ((hone ⟨hreq, hrep⟩).symm.trans (hone ⟨hreq', hrep'⟩)) (by decide)

end ChatNow
