import ChatNow.Message.Reads

/-!
# What a deletion does

`DeleteMessages` and `ClearConversation` of `message/source/message_server.h` erase rows of the
caller's timeline (`delete_by_message_ids`, `delete_by_conversation` of `mysql_user_timeline.hpp`).
`GetHistory`, `SyncMessages` and `GetMessagesById` read the message table, which a deletion leaves
alone. So a deletion is not seen by any of them, whoever asks and whatever happens after it
(`deletion_unseen`): the caller is still shown the deleted message (`deleted_message_shown`).

The transactions that the service and its consumer make on the tables are `TableOp`; `unseen_run`
follows two tables that differ in the timeline alone through a list of them.
-/

namespace ChatNow

/-- `DeleteMessagesReq`. -/
structure DeleteMessagesReq where
  conversation_id : String
  message_ids : List Int64

/-- `ClearConversationReq`. -/
structure ClearConversationReq where
  conversation_id : String

/-- A request that erases rows of the caller's timeline. -/
inductive Deletion
  | messages (uid : String) (req : DeleteMessagesReq)
  | conversation (uid : String) (req : ClearConversationReq)

/-- What the environment decides while an RPC deletes. -/
structure DeleteChoice where
  /-- The query for the caller's membership fails. -/
  self : Bool := false
  /-- The transaction that erases is committed. -/
  commits : Bool := true

namespace ReadTables

variable (t : ReadTables)

/-- `erase_query` over the timeline. -/
def erase_timeline (commits : Bool) (P : UserTimeline → Bool) : ReadTables :=
  if commits then { t with timeline := t.timeline.filter fun r ↦ !P r } else t

/-- The rows of `delete_by_message_ids`. -/
def of_message_ids (uid cid : String) (mids : List UInt64) (r : UserTimeline) : Bool :=
  r.user_id = uid ∧ r.session_id = cid ∧ r.message_id ∈ mids

/-- The rows of `delete_by_conversation`. -/
def of_conversation (uid cid : String) (r : UserTimeline) : Bool :=
  r.user_id = uid ∧ r.session_id = cid

/-- `DeleteMessages`, for a caller that is logged in. A transaction that fails is only logged. -/
def DeleteMessages (c : DeleteChoice) (uid : String) (req : DeleteMessagesReq) :
    Except ServiceError ReadTables := do
  check_message_ids req.message_ids
  t.require_member_ { self := c.self } req.conversation_id uid
  let mids := req.message_ids.map (·.toUInt64)
  return t.erase_timeline c.commits (of_message_ids uid req.conversation_id mids)

/-- `ClearConversation`, for a caller that is logged in. A transaction that fails is only logged. -/
def ClearConversation (c : DeleteChoice) (uid : String) (req : ClearConversationReq) :
    Except ServiceError ReadTables := do
  t.require_member_ { self := c.self } req.conversation_id uid
  return t.erase_timeline c.commits (of_conversation uid req.conversation_id)

end ReadTables

namespace Deletion

/-- The request. -/
def run (c : DeleteChoice) (t : ReadTables) : Deletion → Except ServiceError ReadTables
  | messages uid req => t.DeleteMessages c uid req
  | conversation uid req => t.ClearConversation c uid req

/-- The rows that the request is about. -/
def erases : Deletion → UserTimeline → Bool
  | messages uid req =>
    ReadTables.of_message_ids uid req.conversation_id (req.message_ids.map (·.toUInt64))
  | conversation uid req => ReadTables.of_conversation uid req.conversation_id

/-- The user who asks. -/
def uid : Deletion → String
  | messages uid _ => uid
  | conversation uid _ => uid

end Deletion

/-- A transaction on the tables. -/
inductive TableOp
  /-- That of `onDBMessage`. -/
  | store (row : MessageRow) (timeline : List UserTimeline)
  /-- `update_status_to_recalled`. -/
  | recall_message (mid : UInt64)
  /-- The pins change. -/
  | pins (p : Table MessagePin.key)
  /-- The members change. -/
  | members (m : Table ConversationMember.key)
  /-- A deletion, whether it succeeds or not. -/
  | delete (c : DeleteChoice) (d : Deletion)

/-- The tables after a transaction. -/
def TableOp.run (t : ReadTables) : TableOp → ReadTables
  | store row timeline =>
    if conflicts id t.messages row then t
    else { t with messages := t.messages ++ [row], timeline := t.timeline ++ timeline }
  | recall_message mid => { t with messages := t.messages.map (update_status_to_recalled mid) }
  | pins p => { t with pins := p }
  | members m => { t with members := m }
  | delete c d =>
    match d.run c t with
    | .ok t' => t'
    | .error _ => t

/-! ### Two tables that differ in the timeline -/

/-- The tables are the same but for the timeline. -/
structure SameButTimeline (t t' : ReadTables) : Prop where
  messages : t'.messages = t.messages
  pins : t'.pins = t.pins
  members : t'.members = t.members

section Same

variable {t t' : ReadTables}

theorem SameButTimeline.eq (h : SameButTimeline t t') : t' = { t with timeline := t'.timeline } := by
  obtain ⟨messages, timeline, pins, members⟩ := t'
  obtain ⟨rfl, rfl, rfl⟩ := h
  rfl

theorem SameButTimeline.erase (commits : Bool) (P : UserTimeline → Bool) :
    SameButTimeline t (t.erase_timeline commits P) := by
  rw [ReadTables.erase_timeline]
  split <;> exact ⟨rfl, rfl, rfl⟩

/-- The timeline does not decide whether a deletion succeeds. -/
theorem run_timeline (c : DeleteChoice) (d : Deletion) (timeline : List UserTimeline) :
    (∃ e, d.run c t = .error e ∧ d.run c { t with timeline } = .error e) ∨
      d.run c t = .ok (t.erase_timeline c.commits d.erases) ∧
        d.run c { t with timeline } =
          .ok (({ t with timeline } : ReadTables).erase_timeline c.commits d.erases) := by
  cases d with
  | messages uid req =>
    simp only [Deletion.run, ReadTables.DeleteMessages]
    cases ReadTables.check_message_ids req.message_ids with
    | error e => exact .inl ⟨e, rfl, rfl⟩
    | ok _ =>
      have hsame : ({ t with timeline } : ReadTables).require_member_ { self := c.self }
          req.conversation_id uid = t.require_member_ { self := c.self } req.conversation_id uid :=
        rfl
      rw [hsame]
      cases t.require_member_ { self := c.self } req.conversation_id uid with
      | error e => exact .inl ⟨e, rfl, rfl⟩
      | ok _ => exact .inr ⟨rfl, rfl⟩
  | conversation uid req =>
    simp only [Deletion.run, ReadTables.ClearConversation]
    have hsame : ({ t with timeline } : ReadTables).require_member_ { self := c.self }
        req.conversation_id uid = t.require_member_ { self := c.self } req.conversation_id uid :=
      rfl
    rw [hsame]
    cases t.require_member_ { self := c.self } req.conversation_id uid with
    | error e => exact .inl ⟨e, rfl, rfl⟩
    | ok _ => exact .inr ⟨rfl, rfl⟩

/-- A deletion that succeeds erases its rows, if its transaction is committed. -/
theorem run_ok {c : DeleteChoice} {d : Deletion} (h : d.run c t = .ok t') :
    t' = t.erase_timeline c.commits d.erases := by
  rcases run_timeline c d t.timeline with ⟨e, he, -⟩ | ⟨hok, -⟩
  · rw [h] at he
    cases he
  · exact Except.ok.inj (h.symm.trans hok)

/-- **One transaction** keeps the difference in the timeline. -/
theorem SameButTimeline.step (h : SameButTimeline t t') (o : TableOp) :
    SameButTimeline (o.run t) (o.run t') := by
  rw [h.eq]
  cases o with
  | store row timeline =>
    simp only [TableOp.run]
    split <;> exact ⟨rfl, rfl, rfl⟩
  | recall_message mid => exact ⟨rfl, rfl, rfl⟩
  | pins p => exact ⟨rfl, rfl, rfl⟩
  | members m => exact ⟨rfl, rfl, rfl⟩
  | delete c d =>
    simp only [TableOp.run]
    rcases run_timeline c d t'.timeline with ⟨e, he, he'⟩ | ⟨hok, hok'⟩
    · rw [he, he']
      exact ⟨rfl, rfl, rfl⟩
    · rw [hok, hok']
      have h₁ := SameButTimeline.erase (t := t) c.commits d.erases
      have h₂ := SameButTimeline.erase (t := { t with timeline := t'.timeline }) c.commits d.erases
      exact ⟨h₂.messages.trans h₁.messages.symm, h₂.pins.trans h₁.pins.symm,
        h₂.members.trans h₁.members.symm⟩

/-- **A list of transactions** keeps the difference in the timeline. -/
theorem SameButTimeline.run (h : SameButTimeline t t') (ops : List TableOp) :
    SameButTimeline (ops.foldl TableOp.run t) (ops.foldl TableOp.run t') := by
  induction ops generalizing t t' with
  | nil => exact h
  | cons o ops ih => exact ih (h.step o)

end Same

/-- The answers of the three RPCs are the same, whoever asks for what. -/
structure SameReads (t t' : ReadTables) : Prop where
  history : ∀ c uid req, t'.GetHistory c uid req = t.GetHistory c uid req
  sync : ∀ c uid req, t'.SyncMessages c uid req = t.SyncMessages c uid req
  by_id : ∀ c uid req, t'.GetMessagesById c uid req = t.GetMessagesById c uid req

theorem SameButTimeline.sameReads {t t' : ReadTables} (h : SameButTimeline t t') :
    SameReads t t' := by
  rw [h.eq]
  exact ⟨fun _ _ _ ↦ rfl, fun _ _ _ ↦ rfl, fun _ _ _ ↦ rfl⟩

/-- **A deletion is not seen.** When it has succeeded, the caller's rows for what it names are gone
from the timeline, if its transaction was committed, and nothing else has changed; and whatever
happens afterwards, `GetHistory`, `SyncMessages` and `GetMessagesById` answer everybody as if there
had been no deletion. -/
theorem deletion_unseen (c : DeleteChoice) (d : Deletion) (t t' : ReadTables)
    (h : d.run c t = .ok t') :
    t' = { t with timeline := if c.commits then t.timeline.filter fun r ↦ !d.erases r
                              else t.timeline } ∧
      (∀ r, d.erases r = true → r.user_id = d.uid) ∧
      ∀ ops : List TableOp, SameReads (ops.foldl TableOp.run t) (ops.foldl TableOp.run t') := by
  obtain rfl := run_ok h
  refine ⟨?_, fun r hr ↦ ?_, fun ops ↦ ((SameButTimeline.erase _ _).run ops).sameReads⟩
  · rw [ReadTables.erase_timeline]
    split <;> rfl
  · cases d <;> exact (of_decide_eq_true hr).1

/-- Alice and bob are in the team, where bob has written. -/
def bobWrote : ReadTables where
  messages := [{ message_id := 7, seq_id := 1, session_id := "team", user_id := "bob",
                 message_type := MessageType.TEXT.num, create_time := 1000, content := "hi",
                 client_msg_id := none, file_id := "", file_name := "", file_size := 0,
                 status := .NORMAL }]
  timeline := ["alice", "bob"].map fun uid ↦
    { user_id := uid, session_id := "team", message_id := 7, message_time := 1000,
      session_seq := 1, user_seq := 1 }
  members := ⟨[{ conversation_id := "team", user_id := "alice" },
    { conversation_id := "team", user_id := "bob" }], by decide⟩

/-- Alice deletes bob's message. -/
def aliceDeletes : Deletion := .messages "alice" ⟨"team", [7]⟩

/-- Alice clears the conversation. -/
def aliceClears : Deletion := .conversation "alice" ⟨"team"⟩

/-- The message is among those that the three RPCs show alice. -/
def ShownToAlice (t : ReadTables) : Bool :=
  (t.GetHistory {} "alice" ⟨"team", 100, 10⟩).toOption.any
    (fun rsp ↦ rsp.messages.any (·.message_id = 7)) &&
  (t.SyncMessages {} "alice" ⟨"team", 0, 10⟩).toOption.any
    (fun rsp ↦ rsp.messages.any (·.message_id = 7)) &&
  (t.GetMessagesById {} "alice" ⟨[7]⟩).toOption.any (fun msgs ↦ msgs.any (·.message_id = 7))

/-- When alice deletes the message, bob's row of the timeline stays. -/
theorem deletion_unseen_by_bob :
    ∃ t', aliceDeletes.run {} bobWrote = .ok t' ∧ t'.timeline.map (·.user_id) = ["bob"] ∧
      ∀ ops : List TableOp,
        SameReads (ops.foldl TableOp.run bobWrote) (ops.foldl TableOp.run t') := by
  obtain ⟨-, -, hreads⟩ := deletion_unseen {} aliceDeletes bobWrote _ rfl
  exact ⟨_, rfl, by decide, hreads⟩

/-- Alice is shown the message that she has deleted, and the message of the conversation that she
has cleared. -/
theorem deleted_message_shown :
    (∃ t', aliceDeletes.run {} bobWrote = .ok t' ∧ ShownToAlice t' = true) ∧
      ∃ t', aliceClears.run {} bobWrote = .ok t' ∧ ShownToAlice t' = true :=
  ⟨⟨_, rfl, by decide +kernel⟩, _, rfl, by decide +kernel⟩

end ChatNow
