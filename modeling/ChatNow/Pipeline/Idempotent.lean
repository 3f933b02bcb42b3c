import ChatNow.Pipeline.Publishes

/-!
# At most one live publish for a client message

What the idempotency key buys, over every interleaving of requests, confirm callbacks and persisted
marks, as long as Redis answers (`noRedisFault`): when a request publishes, every earlier publish
for the same user and `client_msg_id` has been reported as failed and its request has deleted the
key.

The invariant (`Gate`) is one of ownership. A request **holds** its key from the `SET NX` that took
it until it deletes it, which only a request that gives up does; an acked request holds it for ever.
A key that is held is present, and nobody else holds it. The late persisted mark of a delivery does
not disturb this: it can put a key back that nobody holds, or overwrite the value of one that is
held, but it never deletes one. And since every value written parses, no reader takes one for
corrupt and deletes it.
-/

namespace ChatNow

open Prog PipeOp

/-- Redis answers every call. -/
def noRedisFault : PipeGuard where
  onOp _ o c _ := o.onRedis = true → c.fault = false
  onEv _ _ := True

instance (i : ℕ) (o : PipeOp) (c : Choice) (s : Pipe) :
    Decidable (noRedisFault.onOp i o c s) :=
  inferInstanceAs (Decidable (o.onRedis = true → c.fault = false))

instance (e : PipeEv) (p : PipePool) : Decidable (noRedisFault.onEv e p) := .isTrue trivial

/-- The request has taken its key and not given it back. -/
def SendPhase.Holds : SendPhase → Prop
  | active own => own = true
  | inflight own _ => own = true
  | acked own _ => own = true
  | failing own _ => own = true
  | _ => False

/-- A phase that the gate leads to when Redis answers and every value parses. -/
def SendPhase.Regular : SendPhase → Prop
  | active own => own = true
  | inflight own _ => own = true
  | acked own _ => own = true
  | failing own _ => own = true
  | sawCorrupt => False
  | cleared => False
  | turnedAway => False
  | _ => True

/-- A value that no reader takes for corrupt. -/
def Readable (v : String) : Prop := SendPhase.ofCached (some v) ≠ .sawCorrupt

theorem readable_pending : Readable SendMessage.pending := by
  rw [Readable, SendPhase.ofCached, SendMessage.cached_state, SendMessage.pending]
  simp [SendPhase.ofState]

theorem SendPhase.not_ofCached_holds (cached : Option String) :
    ¬ (SendPhase.ofCached cached).Holds := by
  rw [SendPhase.ofCached]
  generalize SendMessage.cached_state cached = state
  obtain ⟨status, id⟩ := state
  cases status <;> exact not_false

theorem SendPhase.ofCached_regular {cached : Option String}
    (h : SendPhase.ofCached cached ≠ .sawCorrupt) : (SendPhase.ofCached cached).Regular := by
  revert h
  rw [SendPhase.ofCached]
  generalize SendMessage.cached_state cached = state
  obtain ⟨status, id⟩ := state
  intro h
  cases status with
  | Corrupt => exact absurd rfl h
  | _ => exact trivial

/-- A request that has a key starts before the gate, one that has none past it and without one. -/
theorem sendStart_regular {cfg : TransmiteConfig} {uid client_msg_id : String}
    (h : sendKey cfg uid client_msg_id ≠ none) : (sendStart cfg client_msg_id).Regular := by
  unfold sendKey at h
  rw [sendStart]
  split at h
  · next hc =>
    rw [if_pos hc]
    exact trivial
  · exact absurd rfl h

theorem sendStart_not_holds (cfg : TransmiteConfig) (client_msg_id : String) :
    ¬ (sendStart cfg client_msg_id).Holds := by
  rw [sendStart]
  split
  · exact not_false
  · exact Bool.false_ne_true

/-- Held keys are present and have one holder, and no value is corrupt. -/
structure Gate (cfg : TransmiteConfig) (f : ℕ → Option Sender) (redis : String → Option String) :
    Prop where
  regular : ∀ i x, f i = some x → x.key cfg ≠ none → x.ph.Regular
  present : ∀ i x k, f i = some x → x.key cfg = some k → x.ph.Holds → redis k ≠ none
  unique : ∀ i j x y k, f i = some x → f j = some y → x.key cfg = some k → y.key cfg = some k →
    x.ph.Holds → y.ph.Holds → i = j
  readable : ∀ k v, redis k = some v → Readable v

namespace Gate

variable {cfg : TransmiteConfig} {f : ℕ → Option Sender} {redis : String → Option String} {i : ℕ}
  {x : Sender} {ph' : SendPhase} {k : String}

/-- A new or an old request comes to stand somewhere without taking a key. -/
theorem set (h : Gate cfg f redis) (hreg : x.key cfg ≠ none → x.ph.Regular)
    (hhold : ∀ k, x.key cfg = some k → x.ph.Holds →
      ∃ y, f i = some y ∧ y.key cfg = some k ∧ y.ph.Holds) :
    Gate cfg (Function.update f i (some x)) redis := by
  -- whoever holds a key afterwards has held it before
  have hback : ∀ j y k, Function.update f i (some x) j = some y → y.key cfg = some k →
      y.ph.Holds → ∃ z, f j = some z ∧ z.key cfg = some k ∧ z.ph.Holds := by
    intro j y k hj hk hy
    rcases eq_or_ne j i with rfl | hji
    · rw [Function.update_self] at hj
      obtain rfl := Option.some.inj hj
      exact hhold k hk hy
    · rw [Function.update_of_ne hji] at hj
      exact ⟨y, hj, hk, hy⟩
  refine ⟨fun j y hj hk ↦ ?_, fun j y k hj hk hy ↦ ?_, fun j j' y y' k hj hj' hk hk' hy hy' ↦ ?_,
    h.readable⟩
  · rcases eq_or_ne j i with rfl | hji
    · rw [Function.update_self] at hj
      obtain rfl := Option.some.inj hj
      exact hreg hk
    · rw [Function.update_of_ne hji] at hj
      exact h.regular j y hj hk
  · obtain ⟨z, hz, hzk, hzh⟩ := hback j y k hj hk hy
    exact h.present j z k hz hzk hzh
  · obtain ⟨z, hz, hzk, hzh⟩ := hback j y k hj hk hy
    obtain ⟨z', hz', hzk', hzh'⟩ := hback j' y' k hj' hk' hy'
    exact h.unique j j' z z' k hz hz' hzk hzk' hzh hzh'

/-- A key gets a value. -/
theorem write (h : Gate cfg f redis) {v : String} (hv : Readable v) :
    Gate cfg f (Function.update redis k (some v)) := by
  refine ⟨h.regular, fun j y k' hj hk hy ↦ ?_, h.unique, fun k' v' hv' ↦ ?_⟩
  · rcases eq_or_ne k' k with rfl | hk'
    · rw [Function.update_self]
      exact Option.some_ne_none v
    · rw [Function.update_of_ne hk']
      exact h.present j y k' hj hk hy
  · rcases eq_or_ne k' k with rfl | hk'
    · rw [Function.update_self] at hv'
      obtain rfl := Option.some.inj hv'
      exact hv
    · rw [Function.update_of_ne hk'] at hv'
      exact h.readable k' v' hv'

/-- A key that nobody holds is deleted. -/
theorem delete (h : Gate cfg f redis)
    (hfree : ∀ j y, f j = some y → y.key cfg = some k → ¬ y.ph.Holds) :
    Gate cfg f (Function.update redis k none) := by
  refine ⟨h.regular, fun j y k' hj hk hy ↦ ?_, h.unique, fun k' v' hv' ↦ ?_⟩
  · have hk' : k' ≠ k := by
      rintro rfl
      exact hfree j y hj hk hy
    rw [Function.update_of_ne hk']
    exact h.present j y k' hj hk hy
  · rcases eq_or_ne k' k with rfl | hk'
    · rw [Function.update_self] at hv'
      cases hv'
    · rw [Function.update_of_ne hk'] at hv'
      exact h.readable k' v' hv'

/-- A request takes a key that is free. -/
theorem take (h : Gate cfg f redis) (hk : x.key cfg = some k) (hfree : redis k = none) :
    Gate cfg (Function.update f i (some { x with ph := .active true }))
      (Function.update redis k (some SendMessage.pending)) := by
  -- nobody holds a key that is free
  have hnone : ∀ j y, f j = some y → y.key cfg = some k → ¬ y.ph.Holds :=
    fun j y hj hy hh ↦ h.present j y k hj hy hh hfree
  refine ⟨fun j y hj hy ↦ ?_, fun j y k' hj hy hh ↦ ?_, fun j j' y y' k' hj hj' hy hy' hh hh' ↦ ?_,
    (h.write readable_pending).readable⟩
  · rcases eq_or_ne j i with rfl | hji
    · rw [Function.update_self] at hj
      obtain rfl := Option.some.inj hj
      exact rfl
    · rw [Function.update_of_ne hji] at hj
      exact h.regular j y hj hy
  · rcases eq_or_ne k' k with rfl | hk'
    · rw [Function.update_self]
      exact Option.some_ne_none _
    · have hji : j ≠ i := by
        rintro rfl
        rw [Function.update_self] at hj
        obtain rfl := Option.some.inj hj
        exact hk' (Option.some.inj (hy.symm.trans hk))
      rw [Function.update_of_ne hji] at hj
      rw [Function.update_of_ne hk']
      exact h.present j y k' hj hy hh
  · rcases eq_or_ne j i with rfl | hji
    · rcases eq_or_ne j' j with rfl | hji'
      · rfl
      · rw [Function.update_self] at hj
        rw [Function.update_of_ne hji'] at hj'
        obtain rfl := Option.some.inj hj
        obtain rfl : k = k' := Option.some.inj (hk.symm.trans hy)
        exact absurd hh' (hnone j' y' hj' hy')
    · rw [Function.update_of_ne hji] at hj
      rcases eq_or_ne j' i with rfl | hji'
      · rw [Function.update_self] at hj'
        obtain rfl := Option.some.inj hj'
        obtain rfl : k = k' := Option.some.inj (hk.symm.trans hy')
        exact absurd hh (hnone j y hj hy)
      · rw [Function.update_of_ne hji'] at hj'
        exact h.unique j j' y y' k' hj hj' hy hy' hh hh'

/-- The holder gives its key back. -/
theorem giveBack (h : Gate cfg f redis) (hi : f i = some x) (hk : x.key cfg = some k)
    (hh : x.ph.Holds) (hreg : ph'.Regular) (hph : ¬ ph'.Holds) :
    Gate cfg (Function.update f i (some { x with ph := ph' })) (Function.update redis k none) := by
  have hset : Gate cfg (Function.update f i (some { x with ph := ph' })) redis :=
    h.set (fun _ ↦ hreg) fun k _ hhold ↦ absurd hhold hph
  refine hset.delete fun j y hj hy hhold ↦ ?_
  rcases eq_or_ne j i with rfl | hji
  · rw [Function.update_self] at hj
    obtain rfl := Option.some.inj hj
    exact hph hhold
  · rw [Function.update_of_ne hji] at hj
    exact hji (h.unique j i y x k hj hi hy hk hhold hh)

/-- A move of a request, when Redis answers. -/
theorem call {collate : String → String} {G : PipeGuard} {o : PipeOp} {c : Choice} {s s' : Pipe}
    (hG : ∀ i o c s, G.onOp i o c s → o.onRedis = true → c.fault = false) (h : Gate cfg f s.redis)
    (ht : Tracked f s.wire) (hi : f i = some x) (hg : G.onOp i o c s)
    (hm : SendMove collate (x.key cfg) x.uid x.req i o c x.ph s ph' s') :
    Gate cfg (Function.update f i (some { x with ph := ph' })) s'.redis := by
  have hset : (x.key cfg ≠ none → x.ph.Regular → ph'.Regular) → (ph'.Holds → x.ph.Holds) →
      Gate cfg (Function.update f i (some { x with ph := ph' })) s.redis := by
    intro hreg hhold
    refine h.set (fun hk ↦ hreg hk (h.regular i x hi hk)) fun k hk hh ↦ ?_
    exact ⟨x, hi, hk, hhold hh⟩
  have hreg : ∀ k, x.key cfg = some k → x.ph.Regular := by
    intro k hk
    exact h.regular i x hi (by simp [hk])
  have hhas : ∀ msg, x.ph.published = some msg → 0 < msg.message.message_id.toUInt64.toNat := by
    intro msg hp
    obtain ⟨-, -, -, -, hasm, -⟩ := ht.exists_entry hi hp
    exact hasm.id_pos
  generalize hph : x.ph = ph at hm
  rw [hph] at hset hreg hhas
  cases hm with
  | take hk _ hfree => exact h.take hk hfree
  | refuse hk hp =>
    rcases hp with ⟨rfl, rfl⟩ | ⟨rfl, rfl⟩
    · exact hset (fun _ _ ↦ trivial) id
    · exact False.elim (hreg _ hk)
  | @look k _ _ hk =>
    have hnot : SendPhase.ofCached (s.redis k) ≠ .sawCorrupt := by
      cases hv : s.redis k with
      | none => simp [SendPhase.ofCached, SendMessage.cached_state, SendPhase.ofState]
      | some v => exact h.readable k v hv
    exact hset (fun _ _ ↦ SendPhase.ofCached_regular hnot)
      fun hh ↦ False.elim (SendPhase.not_ofCached_holds _ hh)
  | failOpen hk ho hf _ =>
    rw [hG _ _ _ _ hg ho] at hf
    cases hf
  | takeUnseen _ hf | giveUpUnseen _ hf | failUnseen _ hf =>
    rw [hG _ _ _ _ hg rfl] at hf
    cases hf
  | find hp _ => exact hset (fun _ _ ↦ trivial) False.elim
  | clear hk => exact False.elim (hreg _ hk)
  | clearFault hk => exact False.elim (hreg _ hk)
  | giveUp hk => exact h.giveBack hi hk (by rw [hph]; rfl) trivial id
  | publish _ => exact hset (fun _ hr ↦ hr) id
  | publishThrow _ => exact hset (fun _ hr ↦ hr) id
  | ack _ _ _ => exact hset (fun _ hr ↦ hr) id
  | nack _ => exact hset (fun _ hr ↦ hr) id
  | @accept k _ _ own msg hk =>
    refine Gate.write (hset (fun _ hr ↦ hr) id) ?_
    rw [Readable, ofCached_accepted (hhas msg rfl)]
    exact SendPhase.noConfusion
  | @fail k _ _ own msg hk =>
    have hhold : x.ph.Holds := by
      rw [hph]
      exact hreg k hk
    exact h.giveBack hi hk hhold trivial id
  | reply _ => exact hset (fun _ hr ↦ hr) id
  | quiet hs =>
    obtain ⟨_, _, _, rfl⟩ := hs
    exact hset (fun _ hr ↦ hr) id

/-- The gate keeps its order through every move. -/
theorem step {pcfg : PipeConfig} {G : PipeGuard} {ts : List Thread} {f' : ℕ → Option Sender}
    {s s' : Pipe} (hG : ∀ i o c s, G.onOp i o c s → o.onRedis = true → c.fault = false)
    (h : Gate pcfg.transmite (senders ts) s.redis) (ht : Tracked (senders ts) s.wire)
    (hm : SenderMove pcfg G ts s f' s') : Gate pcfg.transmite f' s'.redis := by
  cases hm with
  | call hi hg hm => exact h.call hG ht hi hg hm
  | request uid req hi _ hr _ _ =>
    rw [hr]
    refine h.set (fun hk ↦ ?_) fun k hk hh ↦ ?_
    · exact sendStart_regular hk
    · exact False.elim (sendStart_not_holds _ _ hh)
  | receive _ _ _ _ _ hr _ =>
    rw [hr]
    exact h
  | mark _ _ hid _ hr _ =>
    rw [hr]
    refine h.write ?_
    rw [Readable, ofCached_persisted (toNat_pos hid)]
    exact SendPhase.noConfusion
  | other _ hr _ =>
    rw [hr]
    exact h

end Gate

/-- What the pipeline keeps, when Redis answers. -/
def GateInv (cfg : PipeConfig) (ts : List Thread) (s : Pipe) : Prop :=
  Handlers ts s ∧ Tracked (senders ts) s.wire ∧ Gate cfg.transmite (senders ts) s.redis

theorem senders_nil : senders [] = fun _ ↦ none := rfl

theorem gateInv_init (cfg : PipeConfig) : GateInv cfg [] {} := by
  refine ⟨?_, ⟨?_, ?_, ?_⟩, ⟨?_, ?_, ?_, ?_⟩⟩ <;> simp [Handlers, senders_nil]

theorem gateInv_step {cfg : PipeConfig} {ts ts' : List Thread} {s s' : Pipe}
    (h : GateInv cfg ts s) (hm : Move cfg noRedisFault ts s ts' s') : GateInv cfg ts' s' := by
  obtain ⟨hh, ht, hg⟩ := h
  have hs := hm.onSenders hh
  exact ⟨hh.step hm, ht.step hs, hg.step (fun _ _ _ _ h ↦ h) ht hs⟩

/-! ### The result -/

/-- Two messages are for the same user and `client_msg_id`. -/
def SamePair (m m' : InternalMessage) : Prop :=
  m.message.sender_id = m'.message.sender_id ∧ m.message.client_msg_id = m'.message.client_msg_id

/-- The request was told that its publish failed, and has deleted its key. -/
def Posted.Failed (e : Posted) : Prop :=
  (∃ st, e.reported = some st ∧ st ≠ .Acked) ∧ e.released = true

/-- The key of a message of a request with a `client_msg_id`. -/
theorem key_of_assembled {cfg : TransmiteConfig} {x : Sender} {msg : InternalMessage}
    (hredis : cfg.redis = true) (h : Assembled x.uid x.req msg)
    (hc : msg.message.client_msg_id ≠ "") :
    x.key cfg =
      some (idempotency_key_for msg.message.sender_id msg.message.client_msg_id) := by
  rw [Sender.key, sendKey, h.sender_id, h.client_msg_id, if_pos]
  exact ⟨h.client_msg_id ▸ hc, hredis⟩

/-- A publish that is not failed has a request that holds its key. -/
theorem Gate.holds_of_not_failed {cfg : TransmiteConfig} {f : ℕ → Option Sender}
    {wire : List Posted} {redis : String → Option String} (h : Gate cfg f redis)
    (ht : Tracked f wire) (hredis : cfg.redis = true) {e : Posted} (he : e ∈ wire)
    (hc : e.msg.message.client_msg_id ≠ "") (hnot : ¬ e.Failed) :
    ∃ x, f e.tid = some x ∧ x.ph.Holds ∧ x.ph.published = some e.msg ∧ x.key cfg =
      some (idempotency_key_for e.msg.message.sender_id e.msg.message.client_msg_id) := by
  obtain ⟨x, hx, hasm, htr⟩ := ht.entry e he
  have hk := key_of_assembled hredis hasm hc
  have hreg := h.regular _ x hx (by simp [hk])
  refine ⟨x, hx, ?_, htr.published, hk⟩
  generalize x.ph = ph at htr hreg
  cases ph with
  | inflight | acked | failing => exact hreg
  | failed own msg => exact absurd htr.2 hnot
  | _ => exact False.elim htr

/-- The request that is about to publish. -/
theorem exists_publisher {cfg : PipeConfig} {ts : List Thread} {p : PipePool} {i : ℕ}
    {msg : InternalMessage} (hm : p.Meets (pipeContract cfg) Thread.Done ts)
    (hi : p.Calls i (publishConfirm msg)) :
    ∃ x own, senders ts i = some x ∧ x.ph = .active own ∧ Assembled x.uid x.req msg := by
  obtain ⟨t, ht, ha⟩ := hm.calls hi
  cases t with
  | send uid req ph =>
    cases ph with
    | active own => exact ⟨⟨uid, req, .active own⟩, own, senders_eq_some.2 ht, rfl, ha⟩
    | _ => exact False.elim ha
  | consume d ph => cases ph <;> exact False.elim ha
  | sync client cid after_seq ph => cases ph <;> exact False.elim ha
  | dead => exact False.elim ha

/-- **At most one live publish.** In every run in which Redis answers: when a request is about to
publish, every publish for the same user and `client_msg_id` has been reported to its request as
failed, and that request has deleted the key; and no two publishes for them were ever reported as
acked. -/
theorem idempotent_send (cfg : PipeConfig) (hredis : cfg.transmite.redis = true) (p : PipePool)
    (hr : (pipeline cfg).Reach noRedisFault Pipe.init p) :
    (∀ i msg, p.Calls i (publishConfirm msg) → msg.message.client_msg_id ≠ "" →
      ∀ e ∈ p.shared.wire, SamePair e.msg msg → e.Failed) ∧
    ∀ e ∈ p.shared.wire, ∀ e' ∈ p.shared.wire, e.msg.message.client_msg_id ≠ "" →
      SamePair e.msg e'.msg → e.reported = some .Acked → e'.reported = some .Acked → e = e' := by
  obtain ⟨ts, ⟨-, ht, hg⟩, hmeets⟩ := pipeline_invariant hr (gateInv_init cfg) gateInv_step
  constructor
  · intro i msg hi hc e he hpair
    by_contra hnot
    obtain ⟨x, own, hx, hph, hasm⟩ := exists_publisher hmeets hi
    have hkx := key_of_assembled hredis hasm hc
    have hown : x.ph.Holds := by
      have hreg := hg.regular i x hx (by simp [hkx])
      rw [hph] at hreg ⊢
      exact hreg
    obtain ⟨y, hy, hyh, hyp, hky⟩ := hg.holds_of_not_failed ht hredis he (hpair.2 ▸ hc) hnot
    rw [hpair.1, hpair.2] at hky
    -- both hold the key, so they are one request, which has and has not published
    obtain rfl := hg.unique _ _ x y _ hx hy hkx hky hown hyh
    obtain rfl := Option.some.inj (hx.symm.trans hy)
    rw [hph] at hyp
    cases hyp
  · intro e he e' he' hc hpair hack hack'
    have hlive : ∀ e : Posted, e.reported = some .Acked → ¬ e.Failed := by
      rintro e hack ⟨⟨st, hst, hne⟩, -⟩
      exact hne (Option.some.inj (hst.symm.trans hack))
    obtain ⟨x, hx, hxh, -, hkx⟩ := hg.holds_of_not_failed ht hredis he hc (hlive e hack)
    obtain ⟨y, hy, hyh, -, hky⟩ :=
      hg.holds_of_not_failed ht hredis he' (hpair.2 ▸ hc) (hlive e' hack')
    rw [← hpair.1, ← hpair.2] at hky
    exact ht.eq_of_tid he he' (hg.unique _ _ x y _ hx hy hkx hky hxh hyh)

/-- The message that a thread is about to publish. -/
def publishing (p : PipePool) (i : ℕ) : Option InternalMessage :=
  match p.threads[i]? with
  | some (.call (publishConfirm msg) _) => some msg
  | _ => none

theorem calls_of_publishing {p : PipePool} {i : ℕ} {msg : InternalMessage}
    (h : publishing p i = some msg) : p.Calls i (publishConfirm msg) := by
  unfold publishing at h
  split at h
  · next k hk =>
    obtain rfl := Option.some.inj h
    exact ⟨k, hk⟩
  · cases h

/-- The user and the `client_msg_id` of a message. -/
def pairOf (m : InternalMessage) : String × String := (m.message.sender_id, m.message.client_msg_id)

/-- Alice sends a message, is told that it was nacked, and sends it again, up to the publish. -/
def retried : List PipeLabel :=
  .event (.request "alice" (textTo "c1" "m1")) :: List.replicate 13 (.call 0 (smooth 0 .Nacked)) ++
    .event (.request "alice" (textTo "c1" "m1")) :: List.replicate 9 (.call 1 (smooth 1))

theorem idempotent_send_retried :
    ∃ p, (pipeline {}).Reach noRedisFault Pipe.init p ∧
      p.shared.wire.map (fun e ↦ (pairOf e.msg, e.reported)) = [(("alice", "m1"), some .Nacked)] ∧
      (publishing p 1).map pairOf = some ("alice", "m1") ∧ ∀ e ∈ p.shared.wire, e.Failed := by
  obtain ⟨p, hp, hwire, hpub⟩ := Machine.exists_of_run (pipeline {}) noRedisFault Pipe.init retried
    (fun p ↦
      p.shared.wire.map (fun e ↦ (pairOf e.msg, e.reported)) = [(("alice", "m1"), some .Nacked)] ∧
      (publishing p 1).map pairOf = some ("alice", "m1")) (by decide)
  refine ⟨p, hp, hwire, hpub, fun e he ↦ ?_⟩
  obtain ⟨msg, hmsg, hpair⟩ := Option.map_eq_some_iff.1 hpub
  have he' : (pairOf e.msg, e.reported) ∈ [(("alice", "m1"), some PublishStatus.Nacked)] :=
    hwire ▸ List.mem_map_of_mem he
  have hsame : pairOf e.msg = pairOf msg :=
    (Prod.mk.inj (List.mem_singleton.1 he')).1.trans hpair.symm
  have hc : msg.message.client_msg_id = "m1" := (Prod.mk.inj hpair).2
  exact (idempotent_send {} rfl p hp).1 1 msg (calls_of_publishing hmsg) (by rw [hc]; decide) e he
    (Prod.mk.inj hsame)

end ChatNow
