import ChatNow.Pipeline.Publishes

/-!
# Where messages come from

Nothing is delivered or stored that the broker has not received from a request: `Flow` follows the
messages from the wire through the queue and the deliveries into the table. Receipt is for ever
(`SenderMove.has_mono`), so each station only has to be looked at when a message enters it.
-/

namespace ChatNow

open Prog PipeOp OnDBMessage

/-- The broker has received the message. -/
def Pipe.Has (s : Pipe) (msg : InternalMessage) : Prop :=
  ∃ e ∈ s.wire, e.received = true ∧ e.msg = msg

/-- The message waits in the queue or at a consumer. -/
def Pipe.InTransit (s : Pipe) (msg : InternalMessage) : Prop :=
  (∃ d ∈ s.queue, d.msg = msg) ∨ ∃ u ∈ s.unacked, u.2.msg = msg

/-- The columns of a row that identify its message. -/
structure RowFrom (msg : Message) (r : MessageRow) : Prop where
  message_id : r.message_id = msg.message_id.toUInt64
  seq_id : r.seq_id = msg.seq_id
  session_id : r.session_id = msg.conversation_id
  user_id : r.user_id = msg.sender_id
  client_msg_id : r.client_msg_id = if msg.client_msg_id = "" then none else some msg.client_msg_id

theorem rowFrom_row_of (msg : Message) (e : Extracted) : RowFrom msg (row_of msg e) :=
  ⟨rfl, rfl, rfl, rfl, rfl⟩

theorem RowFrom.update {msg : Message} {r : MessageRow} {f : MessageRow → MessageRow}
    (h : RowFrom msg r) (hf : RowUpdate f) : RowFrom msg (f r) where
  message_id := (hf.message_id r).trans h.message_id
  seq_id := (hf.seq_id r).trans h.seq_id
  session_id := (hf.session_id r).trans h.session_id
  user_id := (hf.user_id r).trans h.user_id
  client_msg_id := (hf.client_msg_id r).trans h.client_msg_id

/-! ### Receipt is for ever -/

section Receipt

variable {s s' : Pipe} {msg : InternalMessage}

theorem Pipe.Has.of_wire (h : s.Has msg) (hw : s'.wire = s.wire) : s'.Has msg := by
  rw [Pipe.Has]
  rw [hw]
  exact h

/-- The record of one request changes. -/
theorem Pipe.Has.of_map (h : s.Has msg) {i : ℕ} {g : Posted → Posted}
    (hw : s'.wire = s.wire.map fun e ↦ if e.tid = i then g e else e)
    (hg : ∀ e, (g e).received = e.received ∧ (g e).msg = e.msg) : s'.Has msg := by
  obtain ⟨e, he, hr, rfl⟩ := h
  have hsame : (if e.tid = i then g e else e).received = e.received ∧
      (if e.tid = i then g e else e).msg = e.msg := by
    split
    · exact hg e
    · exact ⟨rfl, rfl⟩
  refine ⟨_, ?_, hsame.1.trans hr, hsame.2⟩
  rw [hw]
  exact List.mem_map_of_mem he

theorem Pipe.Has.receive (h : s.Has msg) {n : ℕ} {e : Posted} (hn : s.wire[n]? = some e)
    (hw : s'.wire = s.wire.set n { e with received := true }) : s'.Has msg := by
  obtain ⟨e', he', hr, rfl⟩ := h
  obtain ⟨m, hm⟩ := List.mem_iff_getElem?.1 he'
  obtain ⟨hlt, -⟩ := List.getElem?_eq_some_iff.1 hn
  rcases eq_or_ne n m with rfl | hne
  · obtain rfl := Option.some.inj (hn.symm.trans hm)
    refine ⟨{ e with received := true }, ?_, rfl, rfl⟩
    rw [hw]
    exact List.mem_set hlt _
  · refine ⟨e', ?_, hr, rfl⟩
    rw [hw]
    exact List.mem_of_getElem? ((List.getElem?_set_ne hne).trans hm)

theorem SendMove.has_mono {collate : String → String} {key : Option String} {uid : String}
    {req : SendMessageReq} {i : ℕ} {o : PipeOp} {c : Choice} {ph ph' : SendPhase}
    (hm : SendMove collate key uid req i o c ph s ph' s') (h : s.Has msg) : s'.Has msg := by
  cases hm with
  | clear | giveUp | giveUpUnseen | fail | failUnseen | ack | nack =>
    exact h.of_map rfl fun _ ↦ ⟨rfl, rfl⟩
  | publish | publishThrow =>
    obtain ⟨e, he, hr, hmsg⟩ := h
    exact ⟨e, List.mem_append_left _ he, hr, hmsg⟩
  | quiet hs =>
    obtain ⟨_, _, _, rfl⟩ := hs
    exact h
  | _ => exact h

/-- What the broker has received it has received for ever. -/
theorem SenderMove.has_mono {cfg : PipeConfig} {G : PipeGuard} {ts : List Thread}
    {f' : ℕ → Option Sender} (hm : SenderMove cfg G ts s f' s') (h : s.Has msg) : s'.Has msg := by
  cases hm with
  | call _ _ hm => exact hm.has_mono h
  | request _ _ _ hw _ _ _ => exact h.of_wire hw
  | receive _ _ hn _ hw _ _ => exact h.receive hn hw
  | mark _ _ _ hw _ _ => exact h.of_wire hw
  | other hw _ _ => exact h.of_wire hw

end Receipt

/-! ### The stations -/

/-- Everything in transit, at a handler or in the table was received by the broker. -/
structure Flow (ts : List Thread) (s : Pipe) : Prop where
  transit : ∀ msg, s.InTransit msg → s.Has msg
  handler : ∀ (i : ℕ) (d : Delivery) (ph : ConsumePhase), ts[i]? = some (.consume d ph) →
    s.Has d.msg
  rows : ∀ r ∈ s.rows, ∃ msg, s.Has msg ∧ RowFrom msg.message r

theorem inTransit_requeue {s : Pipe} {i : ℕ} {msg : InternalMessage}
    (h : (s.requeue i).InTransit msg) : s.InTransit msg := by
  rcases h with ⟨d, hd, rfl⟩ | ⟨u, hu, rfl⟩
  · rcases List.mem_append.1 hd with hd | hd
    · exact .inl ⟨d, hd, rfl⟩
    · obtain ⟨u, hu, rfl⟩ := List.mem_map.1 hd
      exact .inr ⟨u, List.mem_of_mem_filter hu, rfl⟩
  · exact .inr ⟨u, List.mem_of_mem_filter hu, rfl⟩

theorem inTransit_settle {s : Pipe} {i : ℕ} {action : ConsumeAction} {msg : InternalMessage}
    (h : (s.settle i action).InTransit msg) : s.InTransit msg := by
  have hdrop : ∀ s' : Pipe, s'.queue = s.queue →
      s'.unacked = s.unacked.filter (fun u ↦ u.1 ≠ i) → s'.InTransit msg → s.InTransit msg := by
    rintro s' hq hu (⟨d, hd, rfl⟩ | ⟨u, hmem, rfl⟩)
    · exact .inl ⟨d, hq ▸ hd, rfl⟩
    · rw [hu] at hmem
      exact .inr ⟨u, List.mem_of_mem_filter hmem, rfl⟩
  cases action with
  | Ack => exact hdrop (s.settle i .Ack) rfl rfl h
  | NackDiscard => exact hdrop (s.settle i .NackDiscard) rfl rfl h
  | NackRequeue => exact inTransit_requeue (s := { s with settled := _ }) h

theorem settle_rows (s : Pipe) (i : ℕ) (action : ConsumeAction) :
    (s.settle i action).rows = s.rows := by
  cases action <;> rfl

namespace Flow

variable {cfg : PipeConfig} {G : PipeGuard} {ts ts' : List Thread} {s s' : Pipe}

/-- The rule for a move: every station holds what it held, or something the broker has. -/
theorem of_mono (h : Flow ts s) (hmono : ∀ msg, s.Has msg → s'.Has msg)
    (ht : ∀ msg, s'.InTransit msg → s.InTransit msg ∨ s'.Has msg)
    (hh : ∀ (i : ℕ) (d : Delivery) (ph : ConsumePhase), ts'[i]? = some (.consume d ph) →
      (∃ ph', ts[i]? = some (.consume d ph')) ∨ s'.Has d.msg)
    (hr : ∀ r ∈ s'.rows, r ∈ s.rows ∨ ∃ msg, s'.Has msg ∧ RowFrom msg.message r) :
    Flow ts' s' := by
  refine ⟨fun msg hmsg ↦ ?_, fun i d ph hi ↦ ?_, fun r hmem ↦ ?_⟩
  · rcases ht msg hmsg with h' | h'
    · exact hmono msg (h.transit msg h')
    · exact h'
  · rcases hh i d ph hi with ⟨ph', h'⟩ | h'
    · exact hmono _ (h.handler i d ph' h')
    · exact h'
  · rcases hr r hmem with h' | h'
    · obtain ⟨msg, hmsg, hfrom⟩ := h.rows r h'
      exact ⟨msg, hmono msg hmsg, hfrom⟩
    · exact h'

/-- A move of a request leaves the stations alone. -/
theorem stations_of_send {collate : String → String} {key : Option String} {uid : String}
    {req : SendMessageReq} {i : ℕ} {o : PipeOp} {c : Choice} {ph ph' : SendPhase}
    (h : SendMove collate key uid req i o c ph s ph' s') :
    s'.queue = s.queue ∧ s'.unacked = s.unacked ∧ s'.rows = s.rows := by
  cases h with
  | quiet hs =>
    obtain ⟨_, _, _, rfl⟩ := hs
    exact ⟨rfl, rfl, rfl⟩
  | _ => exact ⟨rfl, rfl, rfl⟩

theorem inTransit_of_eq {msg : InternalMessage} (hq : s'.queue = s.queue)
    (hu : s'.unacked = s.unacked) (h : s'.InTransit msg) : s.InTransit msg := by
  unfold Pipe.InTransit at h
  rw [hq, hu] at h
  exact h

/-- The stations stay sound through every move. -/
theorem step (hh : Handlers ts s) (h : Flow ts s) (hm : Move cfg G ts s ts' s') : Flow ts' s' := by
  have hmono : ∀ msg, s.Has msg → s'.Has msg := fun msg ↦ (hm.onSenders hh).has_mono
  cases hm with
  | send hi hG hm =>
    obtain ⟨hq, hu, hr⟩ := stations_of_send hm
    refine h.of_mono hmono (fun msg ↦ .inl ∘ inTransit_of_eq hq hu) (fun j d ph hj ↦ ?_)
      fun r hmem ↦ .inl (hr ▸ hmem)
    exact .inl ⟨ph, Pool.getElem?_of_set hj (by simp)⟩
  | @consume _ _ i d _ _ _ _ hi hG hm =>
    have hhand : ∀ (j : ℕ) (d' : Delivery) (ph ph' : ConsumePhase),
        (ts.set i (.consume d ph'))[j]? = some (.consume d' ph) →
        (∃ ph', ts[j]? = some (.consume d' ph')) ∨ s'.Has d'.msg := by
      intro j d' ph ph' hj
      rcases Pool.getElem?_set_cases hj with ⟨-, heq⟩ | ⟨-, hj⟩
      · obtain ⟨rfl, rfl⟩ := Thread.consume.inj heq
        exact .inr (hmono _ (h.handler _ _ _ hi))
      · exact .inl ⟨ph, hj⟩
    cases hm with
    | commit he hf hfree =>
      refine h.of_mono hmono (fun msg ↦ .inl) (fun j d' ph ↦ hhand j d' ph _) fun r hmem ↦ ?_
      rcases List.mem_append.1 hmem with hmem | hmem
      · exact .inl hmem
      · obtain rfl := List.mem_singleton.1 hmem
        exact .inr ⟨d.msg, hmono _ (h.handler _ _ _ hi), rowFrom_row_of _ _⟩
    | settle _ =>
      refine h.of_mono hmono (fun msg ↦ .inl ∘ inTransit_settle) (fun j d' ph ↦ hhand j d' ph _)
        fun r hmem ↦ .inl ?_
      rw [settle_rows] at hmem
      exact hmem
    | _ => exact h.of_mono hmono (fun msg ↦ .inl) (fun j d' ph ↦ hhand j d' ph _) fun r ↦ .inl
  | sync hi hG hm =>
    cases hm with
    | _ =>
      refine h.of_mono hmono (fun msg ↦ .inl) (fun j d ph hj ↦ ?_) fun r ↦ .inl
      exact .inl ⟨ph, Pool.getElem?_of_set hj (by simp)⟩
  | event hG hp hm =>
    cases hm with
    | request uid req =>
      refine h.of_mono hmono (fun msg ↦ .inl) (fun j d ph hj ↦ ?_) fun r ↦ .inl
      exact .inl ⟨ph, Pool.getElem?_of_append hj (by simp)⟩
    | @receive _ _ n e hn hnew =>
      refine h.of_mono hmono (fun msg hmsg ↦ ?_) (fun j d ph hj ↦ .inl ⟨ph, hj⟩) fun r ↦ .inl
      rcases hmsg with ⟨d, hd, rfl⟩ | hu
      · rcases List.mem_append.1 hd with hd | hd
        · exact .inl (.inl ⟨d, hd, rfl⟩)
        · obtain rfl := List.mem_singleton.1 hd
          obtain ⟨hlt, -⟩ := List.getElem?_eq_some_iff.1 hn
          exact .inr ⟨{ e with received := true }, List.mem_set hlt _, rfl, rfl⟩
      · exact .inl (.inr hu)
    | @deliver _ _ n d hn =>
      have hd : s.InTransit d.msg := .inl ⟨d, List.mem_of_getElem? hn, rfl⟩
      refine h.of_mono hmono (fun msg hmsg ↦ .inl ?_) (fun j d' ph hj ↦ ?_) fun r ↦ .inl
      · rcases hmsg with ⟨d', hd', rfl⟩ | ⟨u, hu, rfl⟩
        · exact .inl ⟨d', List.mem_of_mem_eraseIdx hd', rfl⟩
        · rcases List.mem_append.1 hu with hu | hu
          · exact .inr ⟨u, hu, rfl⟩
          · obtain rfl := List.mem_singleton.1 hu
            exact hd
      · rcases Pool.getElem?_append_cases hj with ⟨-, heq⟩ | ⟨-, hj⟩
        · obtain ⟨rfl, -⟩ := Thread.consume.inj heq
          exact .inr (hmono _ (h.transit _ hd))
        · exact .inl ⟨ph, hj⟩
    | lose i =>
      exact h.of_mono hmono (fun msg ↦ .inl ∘ inTransit_requeue) (fun j d ph hj ↦ .inl ⟨ph, hj⟩)
        fun r ↦ .inl
    | @crash _ _ i hi =>
      refine h.of_mono hmono (fun msg ↦ .inl ∘ @inTransit_requeue s i msg) (fun j d ph hj ↦ ?_)
        fun r ↦ .inl
      exact .inl ⟨ph, Pool.getElem?_of_set hj (by simp)⟩
    | sync =>
      refine h.of_mono hmono (fun msg ↦ .inl) (fun j d ph hj ↦ ?_) fun r ↦ .inl
      exact .inl ⟨ph, Pool.getElem?_of_append hj (by simp)⟩
    | update hf =>
      refine h.of_mono hmono (fun msg ↦ .inl) (fun j d ph hj ↦ .inl ⟨ph, hj⟩) fun r hmem ↦ .inr ?_
      obtain ⟨r', hr', rfl⟩ := List.mem_map.1 hmem
      obtain ⟨msg, hmsg, hfrom⟩ := h.rows r' hr'
      exact ⟨msg, hmono msg hmsg, hfrom.update hf⟩
    | _ => exact h.of_mono hmono (fun msg ↦ .inl) (fun j d ph hj ↦ .inl ⟨ph, hj⟩) fun r ↦ .inl

end Flow

end ChatNow
