import ChatNow.Pipeline.Moves

/-!
# Requests and their publishes

The half of the pipeline in which SendMessage requests act. `senders` forgets every thread that is
not a request; `Move.onSenders` says what a move looks like from there: a move of one request, a new
request, a publish received by the broker, a persisted mark, or nothing.

`Tracked` is the first invariant over this view: every publish on the wire belongs to one request,
which made no other, and what has been reported of it is what the request's phase says.
-/

namespace ChatNow

open Prog PipeOp OnDBMessage

/-- A request and where it stands. -/
structure Sender where
  uid : String
  req : SendMessageReq
  ph : SendPhase

/-- The idempotency key of the request, if it goes through the gate. -/
def Sender.key (cfg : TransmiteConfig) (x : Sender) : Option String :=
  sendKey cfg x.uid x.req.client_msg_id

/-- The requests among the threads. -/
def senders (ts : List Thread) (i : ℕ) : Option Sender :=
  match ts[i]? with
  | some (.send uid req ph) => some ⟨uid, req, ph⟩
  | _ => none

theorem senders_eq_some {ts : List Thread} {i : ℕ} {x : Sender} :
    senders ts i = some x ↔ ts[i]? = some (.send x.uid x.req x.ph) := by
  rw [senders]
  split
  · next uid req ph h =>
    rw [h]
    constructor
    · intro hx
      obtain rfl := Option.some.inj hx
      rfl
    · intro hx
      obtain ⟨rfl, rfl, rfl⟩ := Thread.send.inj (Option.some.inj hx)
      rfl
  · next hne =>
    constructor
    · intro hx
      cases hx
    · intro hx
      exact absurd hx (hne _ _ _)

theorem senders_eq_none {ts : List Thread} {i : ℕ} :
    senders ts i = none ↔ ∀ uid req ph, ts[i]? ≠ some (.send uid req ph) := by
  rw [Option.eq_none_iff_forall_ne_some]
  constructor
  · intro h uid req ph hi
    exact h ⟨uid, req, ph⟩ (senders_eq_some.2 hi)
  · intro h x hx
    exact h _ _ _ (senders_eq_some.1 hx)

theorem lt_of_senders {ts : List Thread} {i : ℕ} {x : Sender} (h : senders ts i = some x) :
    i < ts.length := (List.getElem?_eq_some_iff.1 (senders_eq_some.1 h)).1

/-- A request moves on. -/
theorem senders_set_send {ts : List Thread} {i : ℕ} (hi : i < ts.length) (uid : String)
    (req : SendMessageReq) (ph : SendPhase) :
    senders (ts.set i (.send uid req ph)) =
      Function.update (senders ts) i (some ⟨uid, req, ph⟩) := by
  funext j
  rcases eq_or_ne j i with rfl | hj
  · simp [senders, hi]
  · simp [senders, hj, List.getElem?_set_ne hj.symm]

/-- A thread that is no request moves on. -/
theorem senders_set_other {ts : List Thread} {i : ℕ} {t : Thread} (hi : senders ts i = none)
    (ht : ∀ uid req ph, t ≠ .send uid req ph) : senders (ts.set i t) = senders ts := by
  funext j
  rcases eq_or_ne j i with rfl | hj
  · rw [hi, senders_eq_none]
    intro uid req ph h
    rw [List.getElem?_set_self'] at h
    cases hj : ts[j]? with
    | none => simp [hj] at h
    | some u => exact ht uid req ph (by simpa [hj] using h)
  · simp [senders, List.getElem?_set_ne hj.symm]

/-- A thread that is no request joins. -/
theorem senders_append_other {ts : List Thread} {t : Thread}
    (ht : ∀ uid req ph, t ≠ .send uid req ph) : senders (ts ++ [t]) = senders ts := by
  funext j
  rcases lt_trichotomy j ts.length with hj | rfl | hj
  · simp [senders, List.getElem?_append_left hj]
  · have hnew : senders (ts ++ [t]) ts.length = none := by
      rw [senders_eq_none]
      intro uid req ph h
      exact ht uid req ph (by simpa using h)
    have hold : senders ts ts.length = none := by simp [senders]
    rw [hnew, hold]
  · simp [senders, List.getElem?_append_right hj.le, List.getElem?_eq_none hj.le, 
      List.getElem?_eq_none (show [t].length ≤ j - ts.length by simp; omega)]

/-- A request joins. -/
theorem senders_append_send (ts : List Thread) (uid : String) (req : SendMessageReq)
    (ph : SendPhase) :
    senders (ts ++ [.send uid req ph]) =
      Function.update (senders ts) ts.length (some ⟨uid, req, ph⟩) := by
  funext j
  rcases lt_trichotomy j ts.length with hj | rfl | hj
  · simp [senders, List.getElem?_append_left hj, hj.ne]
  · simp [senders]
  · rw [Function.update_of_ne hj.ne']
    simp [senders, List.getElem?_append_right hj.le, List.getElem?_eq_none hj.le,
      List.getElem?_eq_none (show [Thread.send uid req ph].length ≤ j - ts.length by simp; omega)]

/-! ### The values under a key -/

theorem toNat_pos {n : UInt64} (h : n ≠ 0) : 0 < n.toNat :=
  Nat.pos_of_ne_zero fun h₀ ↦ h (UInt64.toNat_inj.1 h₀)

theorem ofCached_accepted {msg : Message} (h : 0 < msg.message_id.toUInt64.toNat) :
    SendPhase.ofCached (some (acceptedValue msg)) = .sawId msg.message_id.toUInt64.toNat := by
  unfold SendPhase.ofCached SendMessage.cached_state acceptedValue
  dsimp only
  rw [parse_serialize_accepted h (UInt64.toNat_lt _)]
  rfl

theorem ofCached_persisted {msg : Message} (h : 0 < msg.message_id.toUInt64.toNat) :
    SendPhase.ofCached (some (persistedValue msg)) = .sawId msg.message_id.toUInt64.toNat := by
  unfold SendPhase.ofCached SendMessage.cached_state persistedValue
  dsimp only
  rw [parse_serialize_persisted h (UInt64.toNat_lt _)]
  rfl

/-! ### The handlers are no requests -/

/-- The threads of deliveries are threads, and none of them is a request. -/
def Handlers (ts : List Thread) (s : Pipe) : Prop :=
  ∀ i ∈ s.deliveries.map (·.1), i < ts.length ∧ senders ts i = none

theorem settle_wire (s : Pipe) (i : ℕ) (action : ConsumeAction) :
    (s.settle i action).wire = s.wire := by
  cases action <;> rfl

theorem settle_redis (s : Pipe) (i : ℕ) (action : ConsumeAction) :
    (s.settle i action).redis = s.redis := by
  cases action <;> rfl

theorem settle_deliveries (s : Pipe) (i : ℕ) (action : ConsumeAction) :
    (s.settle i action).deliveries = s.deliveries := by
  cases action <;> rfl

theorem handlers_of_eq {ts ts' : List Thread} {s s' : Pipe} (h : Handlers ts s)
    (hs : s'.deliveries = s.deliveries) (hlen : ts.length ≤ ts'.length)
    (hts : ∀ i < ts.length, senders ts i = none → senders ts' i = none) : Handlers ts' s' := by
  intro i hi
  rw [hs] at hi
  obtain ⟨hlt, hnone⟩ := h i hi
  exact ⟨hlt.trans_le hlen, hts i hlt hnone⟩

theorem SendMove.deliveries {collate : String → String} {key : Option String} {uid : String}
    {req : SendMessageReq} {i : ℕ} {o : PipeOp} {c : Choice} {ph ph' : SendPhase} {s s' : Pipe}
    (h : SendMove collate key uid req i o c ph s ph' s') : s'.deliveries = s.deliveries := by
  cases h with
  | quiet hs =>
    obtain ⟨_, _, _, rfl⟩ := hs
    rfl
  | _ => rfl

/-! ### A move, seen from the requests -/

/-- No request has come in and no response has left. -/
structure Pipe.SameRecords (s s' : Pipe) : Prop where
  requests : s'.requests = s.requests
  replies : s'.replies = s.replies

/-- What a move does to the requests, the wire and the idempotency keys. -/
inductive SenderMove (cfg : PipeConfig) (G : PipeGuard) (ts : List Thread) (s : Pipe) :
    (ℕ → Option Sender) → Pipe → Prop
  | call {i : ℕ} {x : Sender} {ph' : SendPhase} {o : PipeOp} {c : Choice} {s' : Pipe}
      (hi : senders ts i = some x) (hG : G.onOp i o c s)
      (h : SendMove cfg.collate (x.key cfg.transmite) x.uid x.req i o c x.ph s ph' s') :
      SenderMove cfg G ts s (Function.update (senders ts) i (some { x with ph := ph' })) s'
  | request {i : ℕ} {s' : Pipe} (uid : String) (req : SendMessageReq) (hi : senders ts i = none)
      (hw : s'.wire = s.wire) (hr : s'.redis = s.redis)
      (hq : s'.requests = s.requests ++ [(i, uid, req)]) (hp : s'.replies = s.replies) :
      SenderMove cfg G ts s (Function.update (senders ts) i
        (some ⟨uid, req, sendStart cfg.transmite req.client_msg_id⟩)) s'
  | receive {n : ℕ} {e : Posted} {p : PipePool} {s' : Pipe} (hG : G.onEv (.receive n) p)
      (hp : p.shared = s) (hn : s.wire[n]? = some e) (hnew : e.received = false)
      (hw : s'.wire = s.wire.set n { e with received := true }) (hr : s'.redis = s.redis)
      (hs : s.SameRecords s') :
      SenderMove cfg G ts s (senders ts) s'
  | mark {i : ℕ} {d : Delivery} {s' : Pipe} (hi : ts[i]? = some (.consume d .committed))
      (hc : d.msg.message.client_msg_id ≠ "") (hid : d.msg.message.message_id.toUInt64 ≠ 0)
      (hw : s'.wire = s.wire)
      (hr : s'.redis = Function.update s.redis
        (idempotency_key_for d.msg.message.sender_id d.msg.message.client_msg_id)
        (some (persistedValue d.msg.message)))
      (hs : s.SameRecords s') :
      SenderMove cfg G ts s (senders ts) s'
  | other {s' : Pipe} (hw : s'.wire = s.wire) (hr : s'.redis = s.redis) (hs : s.SameRecords s') :
      SenderMove cfg G ts s (senders ts) s'

theorem settle_sameRecords (s : Pipe) (i : ℕ) (action : ConsumeAction) :
    s.SameRecords (s.settle i action) := by
  cases action <;> exact ⟨rfl, rfl⟩

section OnSenders

variable {cfg : PipeConfig} {G : PipeGuard} {ts ts' : List Thread} {s s' : Pipe}

/-- A delivery's thread is no request, whatever its phase. -/
theorem senders_of_consume {i : ℕ} {d : Delivery} {ph : ConsumePhase}
    (hi : ts[i]? = some (.consume d ph)) (ph' : ConsumePhase) :
    senders (ts.set i (.consume d ph')) = senders ts :=
  senders_set_other (by simp [senders, hi]) (by simp)

theorem senders_of_sync {i client : ℕ} {cid : String} {after_seq : UInt64} {ph : SyncPhase}
    (hi : ts[i]? = some (.sync client cid after_seq ph)) (ph' : SyncPhase) :
    senders (ts.set i (.sync client cid after_seq ph')) = senders ts :=
  senders_set_other (by simp [senders, hi]) (by simp)

/-- Every move is one of the five. -/
theorem Move.onSenders (hh : Handlers ts s) (h : Move cfg G ts s ts' s') :
    SenderMove cfg G ts s (senders ts') s' := by
  cases h with
  | send hi hG h =>
    have hx := senders_eq_some (x := ⟨_, _, _⟩).2 hi
    rw [senders_set_send (lt_of_senders hx)]
    exact .call hx hG h
  | consume hi hG h =>
    rw [senders_of_consume hi]
    cases h with
    | mark hc hid => exact .mark hi hc hid rfl rfl ⟨rfl, rfl⟩
    | settle _ => exact .other (settle_wire _ _ _) (settle_redis _ _ _) (settle_sameRecords _ _ _)
    | _ => exact .other rfl rfl ⟨rfl, rfl⟩
  | sync hi hG h =>
    rw [senders_of_sync hi]
    cases h <;> exact .other rfl rfl ⟨rfl, rfl⟩
  | event hG hp h =>
    cases h with
    | request uid req =>
      rw [senders_append_send]
      exact .request uid req (by simp [senders]) rfl rfl rfl rfl
    | receive hn hnew => exact .receive hG hp hn hnew rfl rfl ⟨rfl, rfl⟩
    | deliver _ =>
      rw [senders_append_other (by simp)]
      exact .other rfl rfl ⟨rfl, rfl⟩
    | crash hi =>
      rw [senders_set_other (hh _ hi).2 (by simp)]
      exact .other rfl rfl ⟨rfl, rfl⟩
    | sync =>
      rw [senders_append_other (by simp)]
      exact .other rfl rfl ⟨rfl, rfl⟩
    | _ => exact .other rfl rfl ⟨rfl, rfl⟩

/-- Handlers stay handlers. -/
theorem Handlers.step (hh : Handlers ts s) (h : Move cfg G ts s ts' s') : Handlers ts' s' := by
  cases h with
  | @send _ _ i _ _ _ _ _ _ hi hG h =>
    have hx := senders_eq_some (x := ⟨_, _, _⟩).2 hi
    refine handlers_of_eq hh h.deliveries (by simp) fun j _ hj ↦ ?_
    have hne : j ≠ i := by
      rintro rfl
      rw [hx] at hj
      cases hj
    rw [senders_set_send (lt_of_senders hx), Function.update_of_ne hne]
    exact hj
  | consume hi hG h =>
    have hs : s'.deliveries = s.deliveries := by
      cases h with
      | settle _ => exact settle_deliveries _ _ _
      | _ => rfl
    refine handlers_of_eq hh hs (by simp) fun j _ hj ↦ ?_
    rw [senders_of_consume hi]
    exact hj
  | sync hi hG h =>
    have hs : s'.deliveries = s.deliveries := by cases h <;> rfl
    refine handlers_of_eq hh hs (by simp) fun j _ hj ↦ ?_
    rw [senders_of_sync hi]
    exact hj
  | event hG hp h =>
    cases h with
    | request uid req =>
      refine handlers_of_eq hh rfl (by simp) fun j hlt hj ↦ ?_
      rw [senders_append_send, Function.update_of_ne hlt.ne]
      exact hj
    | @deliver _ _ n d hn =>
      intro j hj
      have hsame : senders (ts ++ [.consume d .fresh]) = senders ts :=
        senders_append_other (by simp)
      rw [List.map_append, List.mem_append] at hj
      rw [hsame, List.length_append]
      rcases hj with hj | hj
      · exact ⟨Nat.lt_add_right _ (hh j hj).1, (hh j hj).2⟩
      · obtain rfl : j = ts.length := by simpa using hj
        exact ⟨by simp, by simp [senders]⟩
    | crash hi =>
      refine handlers_of_eq hh rfl (by simp) fun j _ hj ↦ ?_
      rw [senders_set_other (hh _ hi).2 (by simp)]
      exact hj
    | sync =>
      refine handlers_of_eq hh rfl (by simp) fun j _ hj ↦ ?_
      rw [senders_append_other (by simp)]
      exact hj
    | _ => exact hh

end OnSenders

/-! ### The wire and the phases agree -/

/-- What has been reported of a publish is what the request's phase says. -/
def SendPhase.Tracks : SendPhase → Posted → Prop
  | inflight _ msg, e => e.msg = msg ∧ e.reported = none
  | acked _ msg, e => e.msg = msg ∧ e.reported = some .Acked ∧ e.received = true
  | failing _ msg, e => e.msg = msg ∧ ∃ st, e.reported = some st ∧ st ≠ .Acked
  | failed _ msg, e => e.msg = msg ∧ (∃ st, e.reported = some st ∧ st ≠ .Acked) ∧ e.released = true
  | _, _ => False

/-- The message that a request has published. -/
def SendPhase.published : SendPhase → Option InternalMessage
  | inflight _ msg => some msg
  | acked _ msg => some msg
  | failing _ msg => some msg
  | failed _ msg => some msg
  | _ => none

theorem SendPhase.ofCached_published (cached : Option String) :
    (SendPhase.ofCached cached).published = none := by
  rw [SendPhase.ofCached]
  generalize SendMessage.cached_state cached = state
  obtain ⟨status, id⟩ := state
  cases status <;> rfl

theorem sendStart_published (cfg : TransmiteConfig) (client_msg_id : String) :
    (sendStart cfg client_msg_id).published = none := by
  rw [sendStart]
  split <;> rfl

theorem SendPhase.Tracks.published {ph : SendPhase} {e : Posted} (h : ph.Tracks e) :
    ph.published = some e.msg := by
  cases ph with
  | inflight | acked | failing | failed => exact congrArg some h.1.symm
  | _ => exact False.elim h

/-- That the broker has received a publish does not concern its request. -/
theorem SendPhase.Tracks.receive {ph : SendPhase} {e : Posted} (h : ph.Tracks e) :
    ph.Tracks { e with received := true } := by
  cases ph with
  | acked => exact ⟨h.1, h.2.1, rfl⟩
  | inflight | failing | failed => exact h
  | _ => exact False.elim h

/-- Every publish on the wire belongs to one request, which made no other, and their records
agree. -/
structure Tracked (f : ℕ → Option Sender) (wire : List Posted) : Prop where
  entry : ∀ e ∈ wire, ∃ x, f e.tid = some x ∧ Assembled x.uid x.req e.msg ∧ x.ph.Tracks e
  published : ∀ i x, f i = some x → x.ph.published ≠ none → ∃ e ∈ wire, e.tid = i
  nodup : (wire.map (·.tid)).Nodup

namespace Tracked

variable {f : ℕ → Option Sender} {wire : List Posted} {i : ℕ} {x : Sender} {ph' : SendPhase}

/-- A request that has not published has no entry on the wire. -/
theorem not_mem (h : Tracked f wire) (hi : ∀ x, f i = some x → x.ph.published = none) :
    ∀ e ∈ wire, e.tid ≠ i := by
  rintro e he rfl
  obtain ⟨x, hx, -, ht⟩ := h.entry e he
  have hp := ht.published
  rw [hi x hx] at hp
  cases hp

/-- The entries of different requests are different, those of one request the same. -/
theorem eq_of_tid (h : Tracked f wire) {e e' : Posted} (he : e ∈ wire) (he' : e' ∈ wire)
    (htid : e.tid = e'.tid) : e = e' :=
  List.inj_on_of_nodup_map h.nodup he he' htid

/-- The publish of a request. -/
theorem exists_entry (h : Tracked f wire) (hi : f i = some x) {msg : InternalMessage}
    (hp : x.ph.published = some msg) :
    ∃ e ∈ wire, e.tid = i ∧ e.msg = msg ∧ Assembled x.uid x.req msg ∧ x.ph.Tracks e := by
  obtain ⟨e, he, rfl⟩ := h.published i x hi (by simp [hp])
  obtain ⟨y, hy, hasm, ht⟩ := h.entry e he
  obtain rfl : x = y := Option.some.inj (hi.symm.trans hy)
  have hmsg : e.msg = msg := Option.some.inj (ht.published.symm.trans hp)
  exact ⟨e, he, rfl, hmsg, hmsg ▸ hasm, ht⟩

/-- A request that has not published, or a new one, moves on without publishing. -/
theorem set_unpublished (h : Tracked f wire) (hi : ∀ x, f i = some x → x.ph.published = none)
    (hx : x.ph.published = none) : Tracked (Function.update f i (some x)) wire := by
  have hne := h.not_mem hi
  refine ⟨fun e he ↦ ?_, fun j y hj hy ↦ ?_, h.nodup⟩
  · rw [Function.update_of_ne (hne e he)]
    exact h.entry e he
  · rcases eq_or_ne j i with rfl | hji
    · rw [Function.update_self] at hj
      obtain rfl := Option.some.inj hj
      exact absurd hx hy
    · rw [Function.update_of_ne hji] at hj
      exact h.published j y hj hy

/-- A request publishes. -/
theorem post (h : Tracked f wire) (hi : f i = some x) (hx : x.ph.published = none) {e : Posted}
    (htid : e.tid = i) (hasm : Assembled x.uid x.req e.msg) (ht : ph'.Tracks e) :
    Tracked (Function.update f i (some { x with ph := ph' })) (wire ++ [e]) := by
  have hne : ∀ e ∈ wire, e.tid ≠ i := by
    refine h.not_mem fun y hy ↦ ?_
    obtain rfl := Option.some.inj (hi.symm.trans hy)
    exact hx
  refine ⟨fun e' he' ↦ ?_, fun j y hj hy ↦ ?_, ?_⟩
  · rcases List.mem_append.1 he' with he' | he'
    · rw [Function.update_of_ne (hne e' he')]
      exact h.entry e' he'
    · obtain rfl := List.mem_singleton.1 he'
      rw [htid, Function.update_self]
      exact ⟨_, rfl, hasm, ht⟩
  · rcases eq_or_ne j i with rfl | hji
    · exact ⟨e, by simp, htid⟩
    · rw [Function.update_of_ne hji] at hj
      obtain ⟨e', he', htid'⟩ := h.published j y hj hy
      exact ⟨e', List.mem_append_left _ he', htid'⟩
  · rw [List.map_append, List.nodup_append]
    refine ⟨h.nodup, by simp, fun a ha b hb ↦ ?_⟩
    obtain ⟨e', he', rfl⟩ := List.mem_map.1 ha
    obtain rfl : b = i := by simpa [htid] using hb
    exact hne e' he'

/-- A request learns of its publish, or gives its key back. -/
theorem advance (h : Tracked f wire) (hi : f i = some x) {g : Posted → Posted}
    (htid : ∀ e, (g e).tid = e.tid) (hmsg : ∀ e, (g e).msg = e.msg)
    (hnew : ph'.published ≠ none → x.ph.published ≠ none)
    (ht : ∀ e ∈ wire, e.tid = i → x.ph.Tracks e → ph'.Tracks (g e)) :
    Tracked (Function.update f i (some { x with ph := ph' }))
      (wire.map fun e ↦ if e.tid = i then g e else e) := by
  have htid' : ∀ e : Posted, (if e.tid = i then g e else e).tid = e.tid := by
    intro e
    split
    · exact htid e
    · rfl
  refine ⟨fun e' he' ↦ ?_, fun j y hj hy ↦ ?_, ?_⟩
  · obtain ⟨e, he, rfl⟩ := List.mem_map.1 he'
    obtain ⟨y, hy, hasm, hty⟩ := h.entry e he
    rw [htid']
    rcases eq_or_ne e.tid i with hei | hei
    · rw [hei, hi] at hy
      obtain rfl := Option.some.inj hy
      rw [hei, Function.update_self, if_pos rfl]
      exact ⟨_, rfl, by rw [hmsg]; exact hasm, ht e he hei hty⟩
    · rw [Function.update_of_ne hei, if_neg hei]
      exact ⟨y, hy, hasm, hty⟩
  · obtain ⟨e, he, rfl⟩ : ∃ e ∈ wire, e.tid = j := by
      rcases eq_or_ne j i with rfl | hji
      · rw [Function.update_self] at hj
        obtain rfl := Option.some.inj hj
        exact h.published j x hi (hnew hy)
      · rw [Function.update_of_ne hji] at hj
        exact h.published j y hj hy
    exact ⟨_, List.mem_map_of_mem he, htid' e⟩
  · rw [List.map_map]
    have hsame : wire.map ((·.tid) ∘ fun e ↦ if e.tid = i then g e else e) = wire.map (·.tid) :=
      List.map_congr_left fun e _ ↦ htid' e
    rw [hsame]
    exact h.nodup

/-- The broker receives a publish. -/
theorem receive (h : Tracked f wire) {n : ℕ} {e : Posted} (hn : wire[n]? = some e) :
    Tracked f (wire.set n { e with received := true }) := by
  have he : e ∈ wire := List.mem_of_getElem? hn
  have hsame : (wire.set n { e with received := true }).map (·.tid) = wire.map (·.tid) := by
    obtain ⟨hlt, rfl⟩ := List.getElem?_eq_some_iff.1 hn
    have hself := @List.set_getElem_self _ (wire.map Posted.tid) n (by simpa using hlt)
    rw [List.getElem_map] at hself
    rw [List.map_set]
    exact hself
  refine ⟨fun e' he' ↦ ?_, fun j y hj hy ↦ ?_, ?_⟩
  · rcases List.mem_or_eq_of_mem_set he' with he' | rfl
    · exact h.entry e' he'
    · obtain ⟨y, hy, hasm, hty⟩ := h.entry e he
      exact ⟨y, hy, hasm, hty.receive⟩
  · obtain ⟨e', he', rfl⟩ := h.published j y hj hy
    have hmem : e'.tid ∈ (wire.set n { e with received := true }).map (·.tid) := by
      rw [hsame]
      exact List.mem_map_of_mem he'
    exact List.mem_map.1 hmem
  · rw [hsame]
    exact h.nodup

/-- A move of a request. -/
theorem call {collate : String → String} {key : Option String} {o : PipeOp} {c : Choice}
    {s s' : Pipe} (h : Tracked f s.wire) (hi : f i = some x)
    (hm : SendMove collate key x.uid x.req i o c x.ph s ph' s') :
    Tracked (Function.update f i (some { x with ph := ph' })) s'.wire := by
  have hset : x.ph.published = none → ph'.published = none →
      Tracked (Function.update f i (some { x with ph := ph' })) s.wire := by
    intro hx hph
    refine h.set_unpublished (fun y hy ↦ ?_) hph
    obtain rfl := Option.some.inj (hi.symm.trans hy)
    exact hx
  have hkeep : ph' = x.ph → Tracked (Function.update f i (some { x with ph := ph' })) s.wire := by
    rintro rfl
    rw [Function.update_eq_self_iff.2 hi.symm]
    exact h
  have hrel : ph'.published = none → x.ph.published = none →
      Tracked (Function.update f i (some { x with ph := ph' })) (s.release i).wire := by
    intro hph hx
    refine h.advance hi (fun _ ↦ rfl) (fun _ ↦ rfl) (absurd hph) fun e _ _ ht ↦ ?_
    rw [ht.published] at hx
    cases hx
  generalize hph : x.ph = ph at hm
  rw [hph] at hset hkeep hrel
  cases hm with
  | take _ hp | takeUnseen _ _ hp =>
    rcases hp with rfl | rfl
    · exact hset rfl rfl
    · exact hset rfl rfl
  | refuse _ hp =>
    rcases hp with ⟨rfl, rfl⟩ | ⟨rfl, rfl⟩
    · exact hset rfl rfl
    · exact hset rfl rfl
  | look _ => exact hset rfl (SendPhase.ofCached_published _)
  | failOpen _ _ _ hp =>
    rcases hp with rfl | rfl | rfl
    · exact hset rfl rfl
    · exact hset rfl rfl
    · exact hset rfl rfl
  | find hp _ =>
    rcases hp with ⟨id, rfl⟩ | rfl
    · exact hset rfl rfl
    · exact hset rfl rfl
  | clear _ => exact hrel rfl rfl
  | clearFault _ => exact hset rfl rfl
  | giveUp _ | giveUpUnseen _ _ => exact hrel rfl rfl
  | publish hmsg => exact h.post hi (by rw [hph]; rfl) rfl hmsg ⟨rfl, rfl⟩
  | publishThrow hmsg =>
    exact h.post hi (by rw [hph]; rfl) rfl hmsg ⟨rfl, .Error, rfl, by decide⟩
  | ack he htid hr =>
    refine h.advance hi (fun _ ↦ rfl) (fun _ ↦ rfl) (by simp [hph, SendPhase.published]) ?_
    intro e' he' htid' ht
    rw [hph] at ht
    obtain rfl := h.eq_of_tid he he' (htid.trans htid'.symm)
    exact ⟨ht.1, rfl, hr⟩
  | @nack _ _ _ _ st hst =>
    refine h.advance hi (fun _ ↦ rfl) (fun _ ↦ rfl) (by simp [hph, SendPhase.published]) ?_
    intro e' _ _ ht
    rw [hph] at ht
    exact ⟨ht.1, st, rfl, hst⟩
  | accept _ => exact hkeep rfl
  | fail _ =>
    refine h.advance hi (fun _ ↦ rfl) (fun _ ↦ rfl) (by simp [hph, SendPhase.published]) ?_
    intro e' _ _ ht
    rw [hph] at ht
    exact ⟨ht.1, ht.2, rfl⟩
  | failUnseen _ _ =>
    refine h.advance hi (fun _ ↦ rfl) (fun _ ↦ rfl) (by simp [hph, SendPhase.published]) ?_
    intro e' _ _ ht
    rw [hph] at ht
    exact ht
  | reply _ => exact hkeep rfl
  | quiet hs =>
    obtain ⟨_, _, _, rfl⟩ := hs
    exact hkeep rfl

/-- The wire and the phases agree after every move. -/
theorem step {cfg : PipeConfig} {G : PipeGuard} {ts : List Thread} {f' : ℕ → Option Sender}
    {s s' : Pipe} (h : Tracked (senders ts) s.wire) (hm : SenderMove cfg G ts s f' s') :
    Tracked f' s'.wire := by
  cases hm with
  | call hi _ hm => exact h.call hi hm
  | request uid req hi hw _ _ _ =>
    rw [hw]
    refine h.set_unpublished (fun y hy ↦ ?_) ?_
    · rw [hi] at hy
      cases hy
    · exact sendStart_published _ _
  | receive _ _ hn _ hw _ _ =>
    rw [hw]
    exact h.receive hn
  | mark _ _ _ hw _ _ =>
    rw [hw]
    exact h
  | other hw _ _ =>
    rw [hw]
    exact h

end Tracked

end ChatNow
