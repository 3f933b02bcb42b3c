import ChatNow.Common.ErrorCodes
import ChatNow.Lib.Prog
import ChatNow.Proto.Conversation

/-!
# The tables of conversations

The rows of `conversation` and `conversation_member` (`odb/conversation.hxx`,
`odb/conversation_member.hxx`), the operations on them, and the methods of `ConversationTable` and
`ConversationMemberTable` that the write paths call.

A method is one transaction. Where it reads a row without a lock and writes it back, the read and
the commit are two operations, since anything may be committed in between; the write is of the whole
row, as it was read but for what the method has set. Where it reads `FOR UPDATE`, or sends one
`UPDATE`, what it does is one operation. The columns that no modelled path reads or writes are left
out. A query that fails answers as if there were no row, and so do the methods.
-/

namespace ChatNow

open Prog

/-! ### Rows -/

/-- `ConversationType`. -/
inductive ConversationType
  | PRIVATE
  | GROUP
  | CHANNEL
  deriving DecidableEq

/-- `ConversationStatus`. -/
inductive ConversationStatus
  | NORMAL
  | ARCHIVED
  | DISMISSED
  | BANNED
  deriving DecidableEq

/-- `MemberRole`. -/
inductive MemberRole
  | NORMAL
  | ADMIN
  | OWNER
  deriving DecidableEq

/-- `JoinSource`. -/
inductive JoinSource
  | UNKNOWN
  | INVITE
  | SEARCH
  | QR_CODE
  | LINK
  | ADMIN_ADD
  | CREATE
  deriving DecidableEq

/-- `Conversation`. Times are in milliseconds. -/
structure Conversation where
  conversation_id : String
  conversation_name : String := ""
  conversation_type : ConversationType := .PRIVATE
  create_time : ℤ := 0
  member_count : ℤ := 0
  status : ConversationStatus := .NORMAL
  avatar_id : String := ""
  owner_id : Option String := none
  peer_user_id : Option String := none
  description : String := ""
  announcement : String := ""
  max_seq : ℕ := 0
  update_time : ℤ := 0
  deriving DecidableEq

/-- `ConversationMember`. -/
structure ConversationMember where
  conversation_id : String
  user_id : String
  last_read_seq : ℕ := 0
  last_ack_seq : ℕ := 0
  muted : Bool := false
  visible : Bool := true
  pin_time : Option ℤ := none
  role : MemberRole := .NORMAL
  inviter_id : Option String := none
  join_source : JoinSource := .UNKNOWN
  join_time : ℤ := 0
  is_quit : Bool := false
  quit_time : Option ℤ := none
  draft : Option String := none
  deriving DecidableEq

/-- `uk_conv_user`. -/
def ConversationMember.key (m : ConversationMember) : String × String :=
  (m.conversation_id, m.user_id)

/-! ### Operations -/

/-- What is written to the index of conversations. -/
inductive EsWrite
  | upsert (c : Conversation) (mids : List String)
  | delete (cid : String)
  | upd_members (cid : String) (mids : List String)

/-- What an RPC of the service answers beside its header. -/
inductive ConvRsp
  | empty
  | conversation (c : conversation.Conversation)
  | self (info : Option conversation.SelfMemberInfo)
  | failed_member_ids (uids : List String)
  deriving DecidableEq

/-- The operations of the write paths. -/
inductive ConvOp
  /-- `microsec_clock::universal_time`. -/
  | clock
  /-- `uuid`. -/
  | uuid
  /-- A query for the row of a conversation. -/
  | selectConv (cid : String)
  /-- `ConversationTable::insert`. -/
  | insertConv (c : Conversation)
  /-- The commit of a full-row update of a conversation. -/
  | updateConv (c : Conversation)
  /-- A query for the row of a member. -/
  | selectMember (cid uid : String)
  /-- `ConversationMemberTable::members`. -/
  | members (cid : String)
  /-- `append` of one row, with the count. -/
  | append (m : ConversationMember)
  /-- `append_after_create`. -/
  | appendAfterCreate (rows : List ConversationMember)
  /-- The commit of `update` or `update_draft`. -/
  | updateMember (m : ConversationMember)
  /-- The commit of `update_role`. -/
  | writeRole (m : ConversationMember)
  /-- The commit of `set_quit`, with the count. -/
  | writeQuit (m : ConversationMember)
  /-- The commit of `rejoin`, with the count. -/
  | writeRejoin (m : ConversationMember)
  /-- `transfer_owner`. -/
  | transferOwner (cid old_owner_id new_owner_id : String)
  /-- `update_last_read_seq`. -/
  | updateLastReadSeq (cid uid : String) (new_seq : ℕ)
  /-- `update_last_ack_seq`. -/
  | updateLastAckSeq (cid uid : String) (new_seq : ℕ)
  /-- `Members::invalidate`. -/
  | invalidate (cid : String)
  /-- `retry_es_write_`, which nobody waits for. -/
  | esWrite (w : EsWrite)
  /-- The response is sent. -/
  | respond (rsp : Except ServiceError ConvRsp)

/-- What each operation answers. -/
@[reducible]
def ConvOp.Res : ConvOp → Type
  | clock => ℤ
  | uuid => String
  | selectConv _ => Option Conversation
  | insertConv _ => Bool
  | updateConv _ => Bool
  | selectMember _ _ => Option ConversationMember
  | members _ => List String
  | append _ => Bool
  | appendAfterCreate _ => Bool
  | updateMember _ => Bool
  | writeRole _ => Bool
  | writeQuit _ => Bool
  | writeRejoin _ => Bool
  | transferOwner _ _ _ => Bool
  | updateLastReadSeq _ _ _ => Bool
  | updateLastAckSeq _ _ _ => Bool
  | invalidate _ => Unit
  | esWrite _ => Unit
  | respond _ => Unit

/-- Programs of the conversation service. -/
abbrev ConvM := Prog ConvOp ConvOp.Res

open ConvOp

/-- The member row that an operation writes over the one that is there. -/
def ConvOp.rewrites : ConvOp → Option ConversationMember
  | updateMember m => some m
  | writeRole m => some m
  | writeQuit m => some m
  | writeRejoin m => some m
  | _ => none

/-- The change of the count that goes with it. -/
def ConvOp.delta : ConvOp → ℤ
  | writeQuit _ => -1
  | writeRejoin _ => 1
  | _ => 0

/-- The conversation row that an operation writes over the one that is there. -/
def ConvOp.restores : ConvOp → Option Conversation
  | updateConv c => some c
  | _ => none

/-! ### Methods -/

namespace ConversationTable

/-- `exists`. -/
def «exists» (cid : String) : ConvM Bool := do
  let r ← op (selectConv cid)
  return r.isSome

/-- `insert`, which sets the times of the row. -/
def insert (c : Conversation) : ConvM (Option Conversation) := do
  let now ← op clock
  let c := { c with create_time := now, update_time := now }
  if ← op (insertConv c) then return some c else return none

/-- `update`, which sets one. -/
def update (c : Conversation) : ConvM (Option Conversation) := do
  let now ← op clock
  let c := { c with update_time := now }
  if ← op (updateConv c) then return some c else return none

/-- `update_status`. -/
def update_status (cid : String) (s : ConversationStatus) : ConvM Bool := do
  match ← op (selectConv cid) with
  | none => return false
  | some c =>
    let now ← op clock
    op (updateConv { c with status := s, update_time := now })

end ConversationTable

namespace ConversationMemberTable

/-- `update_draft`. -/
def update_draft (cid uid draft : String) : ConvM Bool := do
  match ← op (selectMember cid uid) with
  | none => return false
  | some m => op (updateMember { m with draft := if draft = "" then none else some draft })

/-- `update_role`. -/
def update_role (cid uid : String) (role : MemberRole) : ConvM Bool := do
  match ← op (selectMember cid uid) with
  | none => return false
  | some m => op (writeRole { m with role := role })

/-- `set_quit`. -/
def set_quit (cid uid : String) : ConvM Bool := do
  match ← op (selectMember cid uid) with
  | none => return false
  | some m =>
    if m.is_quit then return false
    else
      let now ← op clock
      op (writeQuit { m with is_quit := true, quit_time := some now })

/-- `rejoin`. -/
def rejoin (cid uid : String) (role : MemberRole) (inviter_id : String) (source : JoinSource) :
    ConvM Bool := do
  match ← op (selectMember cid uid) with
  | none => return false
  | some m =>
    let now ← op clock
    op (writeRejoin
      { m with
        is_quit := false, join_time := now, role := role
        inviter_id := if inviter_id = "" then m.inviter_id else some inviter_id
        join_source := source })

end ConversationMemberTable

end ChatNow
