import ChatNow.Message.ConsumeContract
import ChatNow.Pipeline.Storable
import ChatNow.Transmite.Publishing

/-!
# What a stored message reads back as

A message goes from the request to the row and from the row back to a message: `message_of` in
SendMessage, `row_of` in onDBMessage, and `convert_db_message_to_proto_` where history is fetched.
The row has no place for some of what the message carries, and what it has a place for is not all
filled in. A message reads back as it was published exactly when it carries none of that
(`stored_reads_back`).
-/

namespace ChatNow

open Prog PipeOp MessageType SendMessage OnDBMessage

/-- The two messages agree in every field that SendMessage sets. -/
structure ReadsBack (published stored : Message) : Prop where
  message_id : stored.message_id = published.message_id
  conversation_id : stored.conversation_id = published.conversation_id
  created_at_ms : stored.created_at_ms = published.created_at_ms
  content : stored.content = published.content
  sender_id : stored.sender_id = published.sender_id
  seq_id : stored.seq_id = published.seq_id
  client_msg_id : stored.client_msg_id = published.client_msg_id
  reply_to : stored.reply_to = published.reply_to
  mentioned_user_ids : stored.mentioned_user_ids = published.mentioned_user_ids
  forward_info : stored.forward_info = published.forward_info

/-- The content is all in the columns: the body is of the content's type and fills none of the
fields that have no column. -/
def InColumns (ct : MessageContent) : Prop :=
  match ct.body with
  | some (.text _) => ct.type = TEXT
  | some (.image i) => ct.type = IMAGE ∧ i.width = 0 ∧ i.height = 0 ∧ i.thumbnail_url = ""
  | some (.file f) => ct.type = FILE ∧ f.mime_type = ""
  | some (.audio a) => ct.type = AUDIO ∧ a.duration_sec = 0
  | _ => False

instance (ct : MessageContent) : Decidable (InColumns ct) := by
  unfold InColumns
  split <;> infer_instance

/-- On some delivery of `msg`, onDBMessage inserts the row. -/
def Stores (cfg : MessageConfig) (msg : InternalMessage) (row : MessageRow) : Prop :=
  ∃ redelivered tr timeline r, (consume cfg msg redelivered).Runs (fun _ _ ↦ True) tr () ∧
    ⟨insertMessage row timeline, r⟩ ∈ tr

/-- The row is made of the content that the delivery has accepted. -/
theorem Stores.row_eq {cfg : MessageConfig} {msg : InternalMessage} {row : MessageRow}
    (h : Stores cfg msg row) :
    ∃ e, accepted_content msg.message.content = some e ∧ row = row_of msg.message e := by
  obtain ⟨redelivered, tr, timeline, r, hr, hmem⟩ := h
  obtain ⟨tr₁, tr₂, rfl⟩ := List.append_of_mem hmem
  have hall := (consume_meets cfg msg redelivered).allowed_of_runs hr fun _ _ _ _ ↦ trivial
  generalize (consumeContract cfg msg redelivered).after _ tr₁ = ph at hall
  cases ph <;> first | exact hall.2 | exact hall.elim

/-! ### The content -/

/-- A size whose column is zero is zero: every size, negative ones included, fits its column. -/
theorem file_size_of_column_zero {n : Int64} (h : n.toUInt64 = 0) : 0 = n := by
  rw [← Int64.toInt64_toUInt64 n, h]
  rfl

section Content

variable {msg : Message} {e : Extracted} {ct : MessageContent}

theorem accepted_content_eq (h : accepted_content ct = some e) : extract_content ct = some e := by
  rw [accepted_content] at h
  split at h
  · cases h
  · next he =>
    split at h
    · cases h
    · exact he.trans h

/-- What a text reads back as. -/
theorem stored_text (ht : msg.content.type = TEXT) (h : accepted_content msg.content = some e) :
    (convert_db_message_to_proto_ (row_of msg e)).content =
      { type := TEXT, body := some (.text msg.content.text) } := by
  have he := accepted_content_eq h
  rw [extract_content, if_pos ht] at he
  obtain rfl := Option.some.inj he
  have hnum : TEXT.num ≠ IMAGE.num ∧ TEXT.num ≠ FILE.num ∧ TEXT.num ≠ AUDIO.num := by decide
  simp [convert_db_message_to_proto_, row_of, ht, hnum]

/-- What an image reads back as. -/
theorem stored_image (ht : msg.content.type = IMAGE) (h : accepted_content msg.content = some e) :
    (convert_db_message_to_proto_ (row_of msg e)).content =
      { type := IMAGE, body := some (.image { file_id := msg.content.image.file_id }) } := by
  have he := accepted_content_eq h
  rw [extract_content, if_neg (by rw [ht]; decide), if_pos ht] at he
  obtain rfl := Option.some.inj he
  simp [convert_db_message_to_proto_, row_of, ht]

/-- What a file reads back as. -/
theorem stored_file (ht : msg.content.type = FILE) (h : accepted_content msg.content = some e) :
    (convert_db_message_to_proto_ (row_of msg e)).content =
      { type := FILE, body := some (.file { msg.content.file with mime_type := "" }) } := by
  have he := accepted_content_eq h
  rw [extract_content, if_neg (by rw [ht]; decide), if_neg (by rw [ht]; decide), if_pos ht] at he
  obtain rfl := Option.some.inj he
  have hnum : FILE.num ≠ IMAGE.num := by decide
  simpa [convert_db_message_to_proto_, row_of, ht, hnum] using file_size_of_column_zero

/-- What a recording reads back as. -/
theorem stored_audio (ht : msg.content.type = AUDIO) (h : accepted_content msg.content = some e) :
    (convert_db_message_to_proto_ (row_of msg e)).content =
      { type := AUDIO, body := some (.audio { file_id := msg.content.audio.file_id }) } := by
  have he := accepted_content_eq h
  rw [extract_content, if_neg (by rw [ht]; decide), if_neg (by rw [ht]; decide),
    if_neg (by rw [ht]; decide), if_pos ht] at he
  obtain rfl := Option.some.inj he
  have hnum : AUDIO.num ≠ IMAGE.num ∧ AUDIO.num ≠ FILE.num := by decide
  simp [convert_db_message_to_proto_, row_of, ht, hnum]

/-- **The content reads back** exactly when it is all in the columns. -/
theorem content_reads_back (h : accepted_content msg.content = some e) :
    (convert_db_message_to_proto_ (row_of msg e)).content = msg.content ↔
      InColumns msg.content := by
  have htype := ((accepted_content_isSome msg.content).1 (by rw [h]; rfl)).1
  have hne : TEXT ≠ IMAGE ∧ TEXT ≠ FILE ∧ TEXT ≠ AUDIO ∧ IMAGE ≠ FILE ∧ IMAGE ≠ AUDIO ∧
      FILE ≠ AUDIO := by decide
  obtain ⟨h₁, h₂, h₃, h₄, h₅, h₆⟩ := hne
  simp only [storableTypes, List.mem_cons, List.not_mem_nil, or_false] at htype
  rcases htype with ht | ht | ht | ht
  · rw [stored_text ht h, eq_comm]
    generalize msg.content = ct at ht
    obtain ⟨type, body⟩ := ct
    obtain rfl : type = TEXT := ht
    rcases body with _ | (_ | _ | _ | _ | _ | _ | _ | _) <;>
      simp [InColumns, MessageContent.text, h₁, h₂, h₃]
  · rw [stored_image ht h, eq_comm]
    generalize msg.content = ct at ht
    obtain ⟨type, body⟩ := ct
    obtain rfl : type = IMAGE := ht
    rcases body with _ | (_ | ⟨_, _, _, _⟩ | _ | _ | _ | _ | _ | _) <;>
      simp [InColumns, MessageContent.image, h₁.symm, h₄, h₅]
  · rw [stored_file ht h, eq_comm]
    generalize msg.content = ct at ht
    obtain ⟨type, body⟩ := ct
    obtain rfl : type = FILE := ht
    rcases body with _ | (_ | _ | ⟨_, _, _, _⟩ | _ | _ | _ | _ | _) <;>
      simp [InColumns, MessageContent.file, h₂.symm, h₄.symm, h₆]
  · rw [stored_audio ht h, eq_comm]
    generalize msg.content = ct at ht
    obtain ⟨type, body⟩ := ct
    obtain rfl : type = AUDIO := ht
    rcases body with _ | (_ | _ | _ | ⟨_, _⟩ | _ | _ | _ | _) <;>
      simp [InColumns, MessageContent.audio, h₃.symm, h₅.symm, h₆.symm]

end Content

/-! ### What a request publishes -/

/-- A contract for the publishes alone: each is of a message with `P`. -/
def publishesContract (P : InternalMessage → Prop) : Contract PipeOp PipeOp.Res Unit where
  allowed _ o := ∀ msg, o = publishConfirm msg → P msg
  admits _ _ _ := True
  next _ _ _ := ()

/-- **A request publishes its own message**, and nothing else. -/
theorem sendMessage_publishes (cfg : TransmiteConfig) (uid : String) (request : SendMessageReq) :
    (SendMessage cfg (.ok uid) request).Meets (publishesContract (OfRequest uid request)) ()
      fun _ _ ↦ True := by
  refine sendMessage_meets_of_ignores ⟨?_, fun _ _ _ _ ↦ rfl⟩ ?_ ?_
  · rintro _ _ hquiet msg rfl
    exact absurd hquiet Bool.false_ne_true
  · rintro _ _ ⟨⟩
  · rintro _ _ msg - hof - _ ⟨⟩
    exact hof

theorem Accepts.ofRequest {cfg : TransmiteConfig} {uid : String} {request : SendMessageReq}
    {msg : InternalMessage} (h : Accepts cfg uid request msg) : OfRequest uid request msg := by
  obtain ⟨tr, hr, hmem, -⟩ := h
  obtain ⟨tr₁, tr₂, rfl⟩ := List.append_of_mem hmem
  exact (sendMessage_publishes cfg uid request).allowed_of_runs hr (fun _ _ _ _ ↦ trivial) msg rfl

/-! ### Reading back -/

/-- **Stored messages read back as sent** exactly when nothing is lost on the way: the request
quotes nothing, mentions nobody and forwards nothing, and its content is all in the columns. -/
theorem stored_reads_back {tcfg : TransmiteConfig} {mcfg : MessageConfig} {uid : String}
    {request : SendMessageReq} {msg : InternalMessage} {row : MessageRow}
    (hmsg : Accepts tcfg uid request msg) (hrow : Stores mcfg msg row)
    (hms : 0 ≤ msg.message.created_at_ms) :
    ReadsBack msg.message (convert_db_message_to_proto_ row) ↔
      request.reply_to = none ∧ request.mentioned_user_ids = [] ∧ request.forward_info = none ∧
        InColumns request.content := by
  obtain ⟨e, he, rfl⟩ := hrow.row_eq
  obtain ⟨session_seq, id, ms, hof⟩ := hmsg.ofRequest
  have hcontent := content_reads_back he
  have hreply : msg.message.reply_to = request.reply_to := by rw [hof]; rfl
  have hmention : msg.message.mentioned_user_ids = request.mentioned_user_ids := by rw [hof]; rfl
  have hforward : msg.message.forward_info = request.forward_info := by rw [hof]; rfl
  have hreq : msg.message.content = request.content := by rw [hof]; rfl
  constructor
  · intro h
    refine ⟨?_, ?_, ?_, ?_⟩
    · rw [← hreply, ← h.reply_to]
      rfl
    · rw [← hmention, ← h.mentioned_user_ids]
      rfl
    · rw [← hforward, ← h.forward_info]
      rfl
    · rw [← hreq]
      exact hcontent.1 h.content
  · rintro ⟨hr, hm, hf, hc⟩
    refine ⟨Int64.toInt64_toUInt64 _, rfl, if_neg (Int64.not_lt.2 hms), ?_, rfl, rfl, ?_, ?_, ?_, ?_⟩
    · exact hcontent.2 (hreq ▸ hc)
    · show (if msg.message.client_msg_id = "" then none else some msg.message.client_msg_id).getD ""
        = _
      split
      · next h => exact h.symm
      · rfl
    · rw [hreply, hr]
      rfl
    · rw [hmention, hm]
      rfl
    · rw [hforward, hf]
      rfl

/-- A delivery of an accepted content inserts its row. -/
theorem stores_row_of {cfg : MessageConfig} {msg : InternalMessage} {e : Extracted}
    (h : accepted_content msg.message.content = some e) :
    Stores cfg msg (row_of msg.message e) := by
  refine ⟨false, (consume cfg msg false).trace (obliging ""), timeline_of msg, .inserted,
    (runs_trace _ _).mono fun _ _ _ ↦ trivial, ?_⟩
  simp [consume, onDBMessage, h, obliging]

/-- A text without any extras, and one that mentions a member. -/
def textRequest (mentioned_user_ids : List String) : SendMessageReq :=
  { request_id := "r1"
    conversation_id := "c1"
    client_msg_id := "m1"
    content := { type := .TEXT, body := some (.text { text := "hello" }) }
    mentioned_user_ids := mentioned_user_ids }

/-- What the text is published as when every service obliges. -/
def textMessage (mentioned_user_ids : List String) : InternalMessage :=
  { message := message_of "alice" (textRequest mentioned_user_ids) 1 1 0
    member_id_list := ["alice"]
    user_seqs := [⟨"alice", 1⟩] }

theorem accepts_textRequest (mentioned_user_ids : List String) :
    Accepts {} "alice" (textRequest mentioned_user_ids) (textMessage mentioned_user_ids) :=
  accepts_of_obliging rfl rfl

theorem stores_textMessage (mentioned_user_ids : List String) :
    Stores {} (textMessage mentioned_user_ids)
      (row_of (textMessage mentioned_user_ids).message { content_text := "hello" }) :=
  stores_row_of rfl

/-- A plain text reads back. -/
theorem stored_reads_back_text : ∃ msg row, Accepts {} "alice" (textRequest []) msg ∧
    Stores {} msg row ∧ ReadsBack msg.message (convert_db_message_to_proto_ row) :=
  ⟨_, _, accepts_textRequest [], stores_textMessage [],
    (stored_reads_back (accepts_textRequest []) (stores_textMessage []) (by decide)).2
      ⟨rfl, rfl, rfl, rfl⟩⟩

/-- The mention is lost: the row has no column for it, and the table of mentions is not written. -/
theorem mention_is_lost : ∃ msg row, Accepts {} "alice" (textRequest ["bob"]) msg ∧
    Stores {} msg row ∧ 0 ≤ msg.message.created_at_ms ∧
    ¬ReadsBack msg.message (convert_db_message_to_proto_ row) :=
  ⟨_, _, accepts_textRequest ["bob"], stores_textMessage ["bob"], by decide,
    fun h ↦ absurd h.mentioned_user_ids (by decide)⟩

end ChatNow
