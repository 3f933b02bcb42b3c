import ChatNow.Message.OnDBMessage
import ChatNow.Transmite.SendContract

/-!
# What SendMessage accepts and what onDBMessage stores

Two services validate one `MessageContent`: the producer before it publishes
(`SendMessage.check_content`), the consumer before it stores (`OnDBMessage.accepted_content`). The
producer's switch has no default case, the consumer's discards in it. This module compares the two
on the contents themselves and on the paths of the two handlers.

The columns of the message table are bounded and neither service looks at a length, so the database
refuses what is too long (`OnDBMessage.Extracted.Fits`); the redelivered message is discarded then.
-/

namespace ChatNow

open Prog PipeOp MessageType SendMessage OnDBMessage

/-! ### The two validations -/

/-- The types that the consumer has a case for. -/
def storableTypes : List MessageType := [TEXT, IMAGE, FILE, AUDIO]

/-- The consumer accepts exactly what the producer accepts, among the types it knows. -/
theorem accepted_content_isSome (ct : MessageContent) :
    (accepted_content ct).isSome ↔ ct.type ∈ storableTypes ∧ check_content ct = none := by
  have hne : TEXT ≠ IMAGE ∧ TEXT ≠ FILE ∧ TEXT ≠ AUDIO ∧ IMAGE ≠ FILE ∧ IMAGE ≠ AUDIO ∧
      FILE ≠ AUDIO := by decide
  obtain ⟨h₁, h₂, h₃, h₄, h₅, h₆⟩ := hne
  rw [accepted_content, extract_content, check_content]
  simp only [storableTypes, List.mem_cons, List.not_mem_nil, or_false]
  by_cases ht : ct.type = TEXT
  · simp [ht, h₁, h₂, h₃]
  · by_cases hi : ct.type = IMAGE
    · simp [hi, h₁.symm]
    · by_cases hf : ct.type = FILE
      · simp [hf, h₂.symm, h₄.symm]
      · by_cases ha : ct.type = AUDIO
        · simp [ha, h₃.symm, h₅.symm, h₆.symm]
        · simp [ht, hi, hf, ha]

theorem check_content_of_not_storable {ct : MessageContent} (h : ct.type ∉ storableTypes) :
    check_content ct = none := by
  simp only [storableTypes, List.mem_cons, List.not_mem_nil, or_false, not_or] at h
  obtain ⟨-, hi, hf, ha⟩ := h
  rw [check_content, if_neg hi, if_neg hf, if_neg ha]

/-! ### The columns -/

/-- The columns can hold what the consumer keeps of a content: `text` has bytes, `varchar(64)` and
`varchar(255)` have characters. -/
structure OnDBMessage.Extracted.Fits (e : Extracted) : Prop where
  content_text : e.content_text.utf8ByteSize < 2 ^ 16
  file_id : e.file_id.length ≤ 64
  file_name : e.file_name.length ≤ 255

/-- The columns can hold the content. -/
def ColumnsHold (ct : MessageContent) : Prop := ∀ e, extract_content ct = some e → e.Fits

/-- What a row has of a content. -/
def MessageRow.extracted (row : MessageRow) : Extracted where
  content_text := row.content
  file_id := row.file_id
  file_name := row.file_name
  file_size := row.file_size.toInt64

theorem fits_row_of {msg : Message} {e : Extracted} : (row_of msg e).extracted.Fits ↔ e.Fits :=
  ⟨fun h ↦ ⟨h.content_text, h.file_id, h.file_name⟩,
    fun h ↦ ⟨h.content_text, h.file_id, h.file_name⟩⟩

theorem extract_of_accepted {ct : MessageContent} {e : Extracted}
    (h : accepted_content ct = some e) : extract_content ct = some e := by
  rw [accepted_content] at h
  split at h
  · cases h
  · next e' he =>
    rw [he]
    exact (Option.ite_none_left_eq_some.1 h).2

/-! ### The two handlers -/

/-- SendMessage accepts a request as `msg`: on some path it publishes `msg`, the broker acks the
publish, and the request is answered. -/
def Accepts (cfg : TransmiteConfig) (uid : String) (request : SendMessageReq)
    (msg : InternalMessage) : Prop :=
  ∃ tr, (SendMessage cfg (.ok uid) request).Runs PipeOp.Answers tr () ∧
    ⟨publishConfirm msg, .ok ()⟩ ∈ tr ∧ ⟨awaitConfirm, .Acked⟩ ∈ tr

/-- A database that commits every transaction but those with a content that the columns cannot
hold. -/
def Commits (o : PipeOp) (r : o.Res) : Prop :=
  match o, r with
  | insertMessage row _, r =>
    (row.extracted.Fits → r = .inserted) ∧ (¬row.extracted.Fits → r = .failed)
  | _, _ => True

/-- The consumer can discard `msg` although the database commits whatever its columns can hold: then
it is the type or the content that it discards for. -/
def DiscardsContent (cfg : MessageConfig) (msg : InternalMessage) : Prop :=
  ∃ redelivered tr, (onDBMessage cfg msg redelivered).Runs Commits tr .NackDiscard

/-- After the commit every path acks. -/
theorem after_commit_acks {cfg : MessageConfig} {msg : InternalMessage} {e : Extracted}
    {tr : List (Σ o, PipeOp.Res o)} {a : ConsumeAction}
    (h : (after_commit cfg msg e).Runs Commits tr a) : a = .Ack := by
  obtain ⟨_, _, _, -, -, h⟩ := runs_bind.1 h
  obtain ⟨_, _, _, -, -, h⟩ := runs_bind.1 h
  obtain ⟨_, _, _, -, -, h⟩ := runs_bind.1 h
  cases h
  rfl

theorem discardsContent_iff {cfg : MessageConfig} {msg : InternalMessage} :
    DiscardsContent cfg msg ↔ ∀ e, accepted_content msg.message.content = some e → ¬e.Fits := by
  constructor
  · rintro ⟨redelivered, tr, h⟩ e hc hfits
    simp only [onDBMessage, hc] at h
    cases h with
    | call hr hk =>
      obtain rfl := hr.1 (fits_row_of.2 hfits)
      cases after_commit_acks hk
  · intro hnot
    cases hc : accepted_content msg.message.content with
    | none =>
      refine ⟨false, [], ?_⟩
      simp only [onDBMessage, hc]
      exact .ret _
    | some e =>
      have hrow : ¬(row_of msg.message e).extracted.Fits := fun h ↦ hnot e hc (fits_row_of.1 h)
      refine ⟨true, [⟨insertMessage (row_of msg.message e) (timeline_of msg), .failed⟩], ?_⟩
      simp only [onDBMessage, hc]
      exact .call ⟨fun h ↦ absurd h hrow, fun _ ↦ rfl⟩ (.ret _)

/-- What is published carries the content of the request, which the producer has checked. -/
theorem Accepts.assembled {cfg : TransmiteConfig} {uid : String} {request : SendMessageReq}
    {msg : InternalMessage} (h : Accepts cfg uid request msg) : Assembled uid request msg := by
  obtain ⟨tr, hr, hmem, -⟩ := h
  obtain ⟨tr₁, tr₂, rfl⟩ := List.append_of_mem hmem
  have hall := (sendMessage_meets cfg uid request).allowed_of_runs hr fun _ _ _ h ↦ h
  generalize (sendContract _ uid request).after _ tr₁ = ph at hall
  cases ph <;> first | exact hall | exact hall.elim

/-! ### Every checked request can be accepted -/

/-- Services that are up, for a sender who is the only member. -/
def obliging (uid : String) : (o : PipeOp) → o.Res
  | redisSetNx _ _ => .ok true
  | redisGet _ => .ok none
  | redisDel _ => .ok ()
  | redisSet _ _ => .ok ()
  | selectByClientMsg _ _ => none
  | allowUser _ => true
  | allowSession _ => true
  | resolveUserInfo _ => .ok true
  | resolveMembers _ => .ok { members := [uid] }
  | nextSessionSeq _ => (1 : ℕ)
  | nextUserSeqBatch uids => uids.map fun _ ↦ (1 : ℕ)
  | nextId => .ok (1 : ℕ)
  | nowMs => (0 : Int64)
  | publishConfirm _ => .ok ()
  | awaitConfirm => .Acked
  | reply _ => ()
  | insertMessage _ _ => .inserted
  | selectById _ => false
  | pushPublish _ => .ok ()
  | pushEnqueue _ => ()
  | esPublish _ => .ok ()
  | esEnqueue _ => ()
  | settle _ => ()
  | requireMember _ _ => true
  | selectAfter _ _ _ => ([] : List MessageRow)
  | selectMaxSeq _ => (0 : UInt64)
  | syncReply _ _ _ => ()

theorem obliging_answers (uid : String) (o : PipeOp) : o.Answers (obliging uid o) := by
  have hlt : 1 < 2 ^ 64 := Nat.one_lt_two_pow (by decide)
  cases o with
  | nextId => exact ⟨Nat.one_pos, hlt⟩
  | nextSessionSeq => exact hlt
  | _ => exact trivial

theorem gate_obliging (cfg : TransmiteConfig) (uid client_msg_id rid : String) :
    ∃ own, (idempotency_gate cfg uid client_msg_id rid).value (obliging uid) = .proceed own := by
  rw [idempotency_gate]
  split
  · exact ⟨false, rfl⟩
  · exact ⟨true, rfl⟩

theorem admission_obliging {cfg : TransmiteConfig} {uid ssid : String} :
    (admission cfg uid ssid).value (obliging uid) = .proceed [uid] := by
  rw [admission]
  split <;> simp [resolve_stage, resolve_members_retry, obliging]

theorem assemble_obliging (uid : String) (request : SendMessageReq) :
    ∃ msg, (assemble uid request [uid]).value (obliging uid) = .proceed msg := by
  simp [assemble, obliging, LARGE_GROUP_THRESHOLD]

/-- A request that passes the content check is accepted as the message it assembles when every
service obliges. -/
theorem accepts_of_obliging {cfg : TransmiteConfig} {uid : String} {request : SendMessageReq}
    {msg : InternalMessage} (hc : check_content request.content = none)
    (hmsg : (assemble uid request [uid]).value (obliging uid) = .proceed msg) :
    Accepts cfg uid request msg := by
  obtain ⟨own, hown⟩ := gate_obliging cfg uid request.client_msg_id request.request_id
  refine ⟨(SendMessage cfg (.ok uid) request).trace (obliging uid), ?_, ?_⟩
  · refine (runs_trace (obliging uid) _).mono ?_
    rintro o _ rfl
    exact obliging_answers uid o
  · simp only [SendMessage, hc, process, publish, trace_bind, hown, admission_obliging, hmsg,
      List.mem_append, op_bind, trace_call]
    constructor
    · exact .inr (.inr (.inr List.mem_cons_self))
    · exact .inr (.inr (.inr (List.mem_cons_of_mem _ List.mem_cons_self)))

theorem exists_accepts {cfg : TransmiteConfig} {uid : String} {request : SendMessageReq}
    (hc : check_content request.content = none) : ∃ msg, Accepts cfg uid request msg := by
  obtain ⟨msg, hmsg⟩ := assemble_obliging uid request
  exact ⟨msg, accepts_of_obliging hc hmsg⟩

/-! ### Agreement of the two sides -/

/-- **Every accepted message is storable**, for one request: whatever SendMessage accepts it as, the
consumer does not discard it for its type or content. -/
def AcceptedIsStorable (tcfg : TransmiteConfig) (mcfg : MessageConfig) (uid : String)
    (request : SendMessageReq) : Prop :=
  ∀ msg, Accepts tcfg uid request msg → ¬ DiscardsContent mcfg msg

/-- The producer and the consumer judge a content alike. -/
def ValidationsAgree (ct : MessageContent) : Prop :=
  check_content ct = none ↔ (accepted_content ct).isSome

theorem validationsAgree_iff (ct : MessageContent) :
    ValidationsAgree ct ↔ ct.type ∈ storableTypes := by
  constructor
  · intro h
    by_contra ht
    exact ht ((accepted_content_isSome ct).1 (h.1 (check_content_of_not_storable ht))).1
  · intro ht
    refine ⟨fun hc ↦ (accepted_content_isSome ct).2 ⟨ht, hc⟩, fun h ↦ ?_⟩
    exact ((accepted_content_isSome ct).1 h).2

/-- A video, uploaded and described as the schema has it. -/
def videoRequest : SendMessageReq :=
  { request_id := "r1"
    conversation_id := "c1"
    client_msg_id := "m1"
    content := { type := .VIDEO, body := some (.video { file_id := "f1", duration_sec := 3 }) } }

end ChatNow
