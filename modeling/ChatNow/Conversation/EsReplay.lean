import ChatNow.Common.EsIndex
import ChatNow.Conversation.Tables

/-!
# Index writes of the conversation service, direct and replayed

`ESConversation` of `common/dao/data_es.hpp`, and the way that a write takes when the index has
refused it three times: `outbox_payload_upsert_` and its siblings turn it into a text, and
`replay_es_write_` reads the text back, makes a conversation of it, and writes that.

* `ESConversation.append_data`, `remove`, `update_member_ids`: the direct writes.
* `outboxPayload`, `replay_es_write_`: the two conversions.
* `replay_eq_iff`: for every conversation, whether what is replayed is what would have been written.

A deletion and a change of the members come back as they were. Of a conversation the payload has
neither the owner nor the time of its creation: `creator_id` is replayed empty, and `create_time` as
the time of the update.
-/

namespace ChatNow

/-! ### Conversions -/

/-- `static_cast<int>` of a type. -/
def ConversationType.toInt : ConversationType → ℤ
  | PRIVATE => 1
  | GROUP => 2
  | CHANNEL => 3

/-- `static_cast` to a type, of a number that names one. -/
def ConversationType.ofInt (n : ℤ) : ConversationType :=
  if n = 2 then GROUP else if n = 3 then CHANNEL else PRIVATE

/-- `static_cast<int>` of a status. -/
def ConversationStatus.toInt : ConversationStatus → ℤ
  | NORMAL => 0
  | ARCHIVED => 1
  | DISMISSED => 2
  | BANNED => 3

/-- `static_cast` to a status, of a number that names one. -/
def ConversationStatus.ofInt (n : ℤ) : ConversationStatus :=
  if n = 1 then ARCHIVED else if n = 2 then DISMISSED else if n = 3 then BANNED else NORMAL

@[simp] theorem ConversationType.ofInt_toInt (t : ConversationType) : ofInt t.toInt = t := by
  cases t <;> rfl

@[simp] theorem ConversationStatus.ofInt_toInt (s : ConversationStatus) : ofInt s.toInt = s := by
  cases s <;> rfl

/-- `(time - epoch).total_seconds()`, which drops the part of a second. -/
def total_seconds (time : ℤ) : ℤ := time.tdiv 1000

/-- `epoch + seconds(n)`. -/
def of_seconds (n : ℤ) : ℤ := n * 1000

@[simp] theorem total_seconds_of_seconds (n : ℤ) : total_seconds (of_seconds n) = n :=
  Int.mul_tdiv_cancel n (by decide)

/-! ### The direct writes -/

namespace ESConversation

def append_data (c : Conversation) (member_ids : List String) : EsRequest :=
  .index c.conversation_id <|
    [("chat_session_id", .string c.conversation_id),
      ("chat_session_name", .string c.conversation_name),
      ("chat_session_type", .int c.conversation_type.toInt),
      ("avatar_id", .string c.avatar_id),
      ("status", .int c.status.toInt),
      ("update_time", .int (total_seconds c.update_time)),
      ("creator_id", .string (c.owner_id.getD "")),
      ("create_time", .int (total_seconds c.create_time))] ++
    if member_ids = [] then [] else [("member_ids", .strings member_ids)]

def remove (cid : String) : EsRequest := .remove cid

def update_member_ids (cid : String) (member_ids : List String) : EsRequest :=
  .update cid [("member_ids", .strings member_ids)]

end ESConversation

/-- The direct write. -/
def EsWrite.direct : EsWrite → EsRequest
  | upsert c mids => ESConversation.append_data c mids
  | delete cid => ESConversation.remove cid
  | upd_members cid mids => ESConversation.update_member_ids cid mids

/-! ### By way of the outbox -/

section Outbox

variable (lib : JsonLib)

def outbox_payload_upsert_ (c : Conversation) (mids : List String) : lib.Text :=
  lib.Serialize
    [("op", .string "upsert"),
      ("cid", .string c.conversation_id),
      ("name", .string c.conversation_name),
      ("type", .int c.conversation_type.toInt),
      ("avatar", .string c.avatar_id),
      ("status", .int c.status.toInt),
      ("ut", .int (total_seconds c.update_time)),
      ("mids", .strings mids)]

def outbox_payload_delete_ (cid : String) : lib.Text :=
  lib.Serialize [("op", .string "delete"), ("cid", .string cid)]

def outbox_payload_upd_members_ (cid : String) (mids : List String) : lib.Text :=
  lib.Serialize [("op", .string "upd_members"), ("cid", .string cid), ("mids", .strings mids)]

/-- The payload of a write. -/
def EsWrite.outboxPayload : EsWrite → lib.Text
  | upsert c mids => outbox_payload_upsert_ lib c mids
  | delete cid => outbox_payload_delete_ lib cid
  | upd_members cid mids => outbox_payload_upd_members_ lib cid mids

/-- What `replay_es_write_` asks of the index; `none` when it asks nothing. -/
def replay_es_write_ (payload : lib.Text) : Option EsRequest := do
  let root ← lib.UnSerialize payload
  let opName ← (root.get "op" (.string "")).asString
  let cid ← (root.get "cid" (.string "")).asString
  let mids := (root.get "mids" .null).elements
  if opName = "upsert" then
    let name ← (root.get "name" (.string "")).asString
    let type ← (root.get "type" (.int 0)).asInt
    let avatar ← (root.get "avatar" (.string "")).asString
    let status ← (root.get "status" (.int 0)).asInt
    let ut ← (root.get "ut" (.int 0)).asInt
    let update_time := of_seconds ut
    let ent : Conversation :=
      { conversation_id := cid, conversation_name := name
        conversation_type := .ofInt type, create_time := update_time, member_count := 0
        status := .ofInt status, avatar_id := avatar, update_time := update_time }
    return ESConversation.append_data ent mids
  else if opName = "delete" then
    return ESConversation.remove cid
  else if opName = "upd_members" then
    return ESConversation.update_member_ids cid mids
  else
    none

variable {lib}

/-- What comes back of a conversation. -/
theorem replay_upsert (c : Conversation) (mids : List String) :
    replay_es_write_ lib (outbox_payload_upsert_ lib c mids) = some
      (ESConversation.append_data
        { c with owner_id := none, create_time := of_seconds (total_seconds c.update_time) }
        mids) := by
  have h : replay_es_write_ lib (outbox_payload_upsert_ lib c mids) = some
      (ESConversation.append_data
        { conversation_id := c.conversation_id, conversation_name := c.conversation_name
          conversation_type := .ofInt c.conversation_type.toInt
          create_time := of_seconds (total_seconds c.update_time), member_count := 0
          status := .ofInt c.status.toInt, avatar_id := c.avatar_id
          update_time := of_seconds (total_seconds c.update_time) } mids) := by
    rw [replay_es_write_, outbox_payload_upsert_, lib.round_trip]
    rfl
  rw [h]
  simp [ESConversation.append_data]

theorem replay_delete (cid : String) :
    replay_es_write_ lib (outbox_payload_delete_ lib cid) = some (ESConversation.remove cid) := by
  rw [replay_es_write_, outbox_payload_delete_, lib.round_trip]
  rfl

theorem replay_upd_members (cid : String) (mids : List String) :
    replay_es_write_ lib (outbox_payload_upd_members_ lib cid mids) =
      some (ESConversation.update_member_ids cid mids) := by
  rw [replay_es_write_, outbox_payload_upd_members_, lib.round_trip]
  rfl

/-- A conversation that the payload has all of: nobody owns it, and it has been created in the
second of its last update. -/
def Replayable (c : Conversation) : Prop :=
  c.owner_id.getD "" = "" ∧ total_seconds c.create_time = total_seconds c.update_time

theorem replay_upsert_eq_iff {c : Conversation} {mids : List String} :
    replay_es_write_ lib (outbox_payload_upsert_ lib c mids) =
      some (ESConversation.append_data c mids) ↔ Replayable c := by
  rw [replay_upsert, Option.some_inj]
  constructor
  · intro h
    have hitem := (EsRequest.index.inj h).2
    have hfields := List.append_cancel_right hitem
    simp only [total_seconds_of_seconds, List.cons.injEq, Prod.mk.injEq, true_and, and_true,
      Json.Value.string.injEq, Json.Value.int.injEq, Option.getD_none] at hfields
    exact ⟨hfields.1.symm, hfields.2.symm⟩
  · rintro ⟨howner, htime⟩
    simp [ESConversation.append_data, howner, htime]

end Outbox

/-- **What is replayed is what would have been written, but for the owner and the time of
creation.** The three kinds of writes at once: the last two always come back as they were. -/
theorem replay_eq_iff (lib : JsonLib) (c : Conversation) (mids : List String) :
    (replay_es_write_ lib (outbox_payload_upsert_ lib c mids) =
        some (ESConversation.append_data c mids) ∧
      (∀ cid, replay_es_write_ lib (outbox_payload_delete_ lib cid) =
        some (ESConversation.remove cid)) ∧
      ∀ cid mids', replay_es_write_ lib (outbox_payload_upd_members_ lib cid mids') =
        some (ESConversation.update_member_ids cid mids')) ↔
    c.owner_id.getD "" = "" ∧ total_seconds c.create_time = total_seconds c.update_time :=
  ⟨fun h ↦ replay_upsert_eq_iff.1 h.1,
    fun h ↦ ⟨replay_upsert_eq_iff.2 h, replay_delete, replay_upd_members⟩⟩

/-- A group that has an owner. -/
theorem replay_loses_owner :
    replay_es_write_ .plain (outbox_payload_upsert_ .plain
        { conversation_id := "g", conversation_type := .GROUP, owner_id := some "u" } ["u"]) ≠
      some (ESConversation.append_data
        { conversation_id := "g", conversation_type := .GROUP, owner_id := some "u" } ["u"]) := by
  decide +kernel

end ChatNow
