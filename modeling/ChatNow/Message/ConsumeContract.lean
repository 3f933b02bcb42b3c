import ChatNow.Message.OnDBMessage

/-!
# What a delivery to onDBMessage does to the shared stores

The automaton of one delivery: the transaction first; after a commit the persisted mark and the
hand-over to push, and only then the ack; after a refusal by a unique index a look at the message
table, and an ack exactly when the id is there. The duplicate branch of the source acks **without**
a hand-over: that is the step `duplicate`.
-/

namespace ChatNow

open Prog PipeOp OnDBMessage

/-- Where a delivery stands. -/
inductive ConsumePhase
  /-- Before the transaction. -/
  | fresh
  /-- The content was refused. -/
  | refused
  /-- The transaction has committed. -/
  | committed
  /-- The push publish is on its way, its callback outstanding. -/
  | posted
  /-- The push publish threw. -/
  | pushThrew
  /-- The payload is in the outbox. -/
  | enqueued
  /-- A unique index refused the row. -/
  | conflict
  /-- The refused row's id is in the table. -/
  | duplicate
  /-- The refused row's id is not in the table, or the transaction failed. -/
  | failed
  /-- The broker has been told. -/
  | settled

/-- The value under the idempotency key of a message that is in the table. -/
def persistedValue (msg : Message) : String :=
  serialize_idempotency_state ⟨.Persisted, msg.message_id.toUInt64.toNat⟩

/-- The contract of a delivery. -/
def consumeContract (cfg : MessageConfig) (msg : InternalMessage) (redelivered : Bool) :
    Contract PipeOp PipeOp.Res ConsumePhase where
  allowed ph o :=
    match ph, o with
    | .fresh, insertMessage row timeline =>
      timeline = timeline_of msg ∧
        ∃ e, accepted_content msg.message.content = some e ∧ row = row_of msg.message e
    | .refused, settle action => action = .NackDiscard
    | .fresh, settle action => action = .NackDiscard ∧
        accepted_content msg.message.content = none
    | .committed, redisSet k v =>
      k = idempotency_key_for msg.message.sender_id msg.message.client_msg_id ∧
        v = persistedValue msg.message ∧ msg.message.client_msg_id ≠ "" ∧
        msg.message.message_id.toUInt64 ≠ 0
    | .committed, pushPublish payload => payload = msg
    | .committed, pushEnqueue payload => payload = msg
    | .committed, esPublish _ => cfg.push_outbox = false
    | .committed, esEnqueue _ => cfg.push_outbox = false
    | .committed, settle action => action = .Ack ∧ cfg.push_outbox = false
    | .pushThrew, pushEnqueue payload => payload = msg
    | .pushThrew, esPublish _ => cfg.push_outbox = false
    | .pushThrew, esEnqueue _ => cfg.push_outbox = false
    | .pushThrew, settle action => action = .Ack ∧ cfg.push_outbox = false
    | .posted, esPublish _ => True
    | .posted, esEnqueue _ => True
    | .posted, settle action => action = .Ack
    | .enqueued, esPublish _ => True
    | .enqueued, esEnqueue _ => True
    | .enqueued, settle action => action = .Ack
    | .conflict, selectById mid => mid = msg.message.message_id.toUInt64
    | .duplicate, settle action => action = .Ack
    | .failed, settle action => action = retry_once redelivered
    | _, _ => False
  admits _ _ _ := True
  next ph o r :=
    match ph, o, r with
    | .fresh, insertMessage _ _, .inserted => .committed
    | .fresh, insertMessage _ _, .alreadyPersistent => .conflict
    | .fresh, insertMessage _ _, .failed => .failed
    | .committed, pushPublish _, .ok () => .posted
    | .committed, pushPublish _, .thrown => .pushThrew
    | .committed, pushEnqueue _, _ => .enqueued
    | .pushThrew, pushEnqueue _, _ => .enqueued
    | .conflict, selectById _, true => .duplicate
    | .conflict, selectById _, false => .failed
    | _, settle _, _ => .settled
    | ph, _, _ => ph

namespace OnDBMessage

variable {cfg : MessageConfig} {msg : InternalMessage} {redelivered : Bool}

theorem mark_idempotency_persisted_meets :
    (mark_idempotency_persisted_ cfg msg.message.sender_id msg.message.client_msg_id
      msg.message.message_id.toUInt64).Meets (consumeContract cfg msg redelivered) .committed
      fun ph _ ↦ ph = .committed := by
  rw [mark_idempotency_persisted_]
  split
  · exact rfl
  · next hc =>
    simp only [Bool.or_eq_true, decide_eq_true_eq, not_or] at hc
    exact ⟨⟨rfl, rfl, hc.1.1.2, hc.2⟩, fun _ _ ↦ rfl⟩

/-- After the hand-over an ack is allowed: the payload is posted or enqueued, unless there is no
outbox. -/
def HandedOver (cfg : MessageConfig) (ph : ConsumePhase) : Prop :=
  ph = .posted ∨ ph = .enqueued ∨ cfg.push_outbox = false ∧ (ph = .committed ∨ ph = .pushThrew)

theorem publish_push_meets :
    (publish_push cfg msg).Meets (consumeContract cfg msg redelivered) .committed
      fun ph _ ↦ HandedOver cfg ph := by
  rw [publish_push]
  split
  · refine meets_op_bind.2 ⟨rfl, fun r _ ↦ ?_⟩
    cases r with
    | ok => exact .inl rfl
    | thrown =>
      dsimp only
      split
      · exact ⟨rfl, fun _ _ ↦ .inr (.inl rfl)⟩
      · next ho => exact .inr (.inr ⟨by simpa using ho, .inr rfl⟩)
  · split
    · exact ⟨rfl, fun _ _ ↦ .inr (.inl rfl)⟩
    · next ho => exact .inr (.inr ⟨by simpa using ho, .inl rfl⟩)

/-- The index event changes nothing, and can be published from every phase after the hand-over. -/
theorem HandedOver.es {ph : ConsumePhase} (h : HandedOver cfg ph) (msg : InternalMessage)
    (redelivered : Bool) (event : ESIndexEvent) :
    (consumeContract cfg msg redelivered).allowed ph (esPublish event) ∧
      (consumeContract cfg msg redelivered).allowed ph (esEnqueue event) ∧
      (∀ r, (consumeContract cfg msg redelivered).next ph (esPublish event) r = ph) ∧
      ∀ r, (consumeContract cfg msg redelivered).next ph (esEnqueue event) r = ph := by
  rcases h with rfl | rfl | ⟨ho, rfl | rfl⟩
  · exact ⟨trivial, trivial, fun _ ↦ rfl, fun _ ↦ rfl⟩
  · exact ⟨trivial, trivial, fun _ ↦ rfl, fun _ ↦ rfl⟩
  · exact ⟨ho, ho, fun _ ↦ rfl, fun _ ↦ rfl⟩
  · exact ⟨ho, ho, fun _ ↦ rfl, fun _ ↦ rfl⟩

theorem HandedOver.settle {ph : ConsumePhase} (h : HandedOver cfg ph) :
    (consumeContract cfg msg redelivered).allowed ph (settle .Ack) := by
  rcases h with rfl | rfl | ⟨ho, rfl | rfl⟩
  · exact rfl
  · exact rfl
  · exact ⟨rfl, ho⟩
  · exact ⟨rfl, ho⟩

theorem HandedOver.next_settle {ph : ConsumePhase} (h : HandedOver cfg ph) :
    (consumeContract cfg msg redelivered).next ph (.settle .Ack) () = .settled := by
  rcases h with rfl | rfl | ⟨-, rfl | rfl⟩ <;> rfl

theorem publish_es_meets {ph : ConsumePhase} {text : String} (h : HandedOver cfg ph) :
    (publish_es cfg msg.message text).Meets (consumeContract cfg msg redelivered) ph
      fun ph' _ ↦ HandedOver cfg ph' := by
  obtain ⟨hp, he, hpn, hen⟩ := h.es msg redelivered (es_event msg.message text)
  rw [publish_es]
  split
  · refine meets_op_bind.2 ⟨hp, fun r _ ↦ ?_⟩
    rw [hpn]
    cases r with
    | ok => exact h
    | thrown =>
      dsimp only
      split
      · refine ⟨he, fun r _ ↦ ?_⟩
        rw [hen]
        exact h
      · exact h
  · exact h

end OnDBMessage

/-- A delivery follows its contract, and does not end before the broker has been told. -/
theorem consume_meets (cfg : MessageConfig) (msg : InternalMessage) (redelivered : Bool) :
    (consume cfg msg redelivered).Meets (consumeContract cfg msg redelivered) .fresh
      fun ph _ ↦ ph = .settled := by
  unfold consume onDBMessage
  dsimp only
  split
  · next hc => exact ⟨⟨rfl, hc⟩, fun _ _ ↦ rfl⟩
  · next e hc =>
    refine meets_op_bind.2 ⟨⟨rfl, e, hc, rfl⟩, fun r _ ↦ ?_⟩
    cases r with
    | failed => exact ⟨rfl, fun _ _ ↦ rfl⟩
    | alreadyPersistent =>
      refine meets_op_bind.2 ⟨rfl, fun found _ ↦ ?_⟩
      cases found with
      | true => exact ⟨rfl, fun _ _ ↦ rfl⟩
      | false => exact ⟨rfl, fun _ _ ↦ rfl⟩
    | inserted =>
      refine Meets.bind ?_ (fun ph a h ↦ ?_) (Q := fun ph a ↦ HandedOver cfg ph ∧ a = .Ack)
      · refine mark_idempotency_persisted_meets.bind fun ph _ hph ↦ ?_
        subst hph
        refine publish_push_meets.bind fun ph _ hph ↦ ?_
        refine (publish_es_meets hph).bind fun ph _ hph ↦ ?_
        exact ⟨hph, rfl⟩
      · obtain ⟨hph, rfl⟩ := h
        exact ⟨hph.settle, fun _ _ ↦ hph.next_settle⟩

end ChatNow
