import ChatNow.Conversation.Tables

/-!
# The RPCs of the conversation service

The write paths of `conversation/source/conversation_server.h`, and `UpdateReadAck` of
`message/source/message_server.h`, which advances a column of the same table.

An RPC reads what it needs for its checks by transactions of their own, before the one that writes;
the role that has been looked up may be another one by then. `HANDLE_RPC` turns a `ServiceError`
into the header of the response; the metadata of a call are those of a user, whose id the RPCs are
given.

The three RPCs for a member's own preferences are one program with different setters
(`set_preference`).
-/

namespace ChatNow

open Prog ConvOp

/-! ### Conversions -/

/-- `static_cast` to the type of the schema. -/
def ConversationType.toProto : ConversationType → conversation.ConversationType
  | PRIVATE => .PRIVATE
  | GROUP => .GROUP
  | CHANNEL => .CHANNEL

/-- `static_cast` to the status of the schema. -/
def ConversationStatus.toProto : ConversationStatus → conversation.ConversationStatus
  | NORMAL => ⟨0⟩
  | ARCHIVED => ⟨1⟩
  | DISMISSED => ⟨2⟩
  | BANNED => ⟨3⟩

/-- `static_cast` to the role of the schema. -/
def MemberRole.toProto : MemberRole → conversation.MemberRole
  | NORMAL => .MEMBER
  | ADMIN => .ADMIN
  | OWNER => .OWNER

/-- What the service was built with. -/
structure ConversationServiceConfig where
  public_url_prefix : String

/-- `avatar_url_of_`. -/
def avatar_url_of_ (cfg : ConversationServiceConfig) (file_id : String) : String :=
  cfg.public_url_prefix ++ "/group_avatar/" ++ file_id

/-- `private_id_of_`. -/
def private_id_of_ (a b : String) : String :=
  let lo := if a < b then a else b
  let hi := if a < b then b else a
  "p_" ++ lo ++ "_" ++ hi

/-- `fill_self_member_info_`. -/
def fill_self_member_info_ (m : ConversationMember) (max_seq : ℕ) :
    conversation.SelfMemberInfo where
  role := m.role.toProto
  joined_at_ms := m.join_time
  is_muted := m.muted
  is_pinned := m.pin_time.isSome
  pin_time_ms := m.pin_time.getD 0
  is_visible := m.visible
  last_read_seq := m.last_read_seq
  unread_count := max_seq - m.last_read_seq
  draft := m.draft

/-! ### Helpers -/

/-- `require_member_`. -/
def require_member_ (cid uid : String) : ConvM Bool := do
  match ← op (selectMember cid uid) with
  | none => return false
  | some m => return !m.is_quit

/-- `role_of_`. -/
def role_of_ (cid uid : String) : ConvM MemberRole := do
  match ← op (selectMember cid uid) with
  | none => return .NORMAL
  | some m => if m.is_quit then return .NORMAL else return m.role

/-- The member list is written to the index, unless it is empty. -/
def publish_members (cid : String) : ConvM Unit := do
  let updated_uids ← op (members cid)
  if updated_uids.isEmpty then return () else op (esWrite (.upd_members cid updated_uids))

/-- What the RPCs for preferences answer. -/
def self_of (cid : String) (m : ConversationMember) : ConvM ConvRsp := do
  let c ← op (selectConv cid)
  return .self (some (fill_self_member_info_ m ((c.map (·.max_seq)).getD 0)))

/-! ### Creating -/

/-- `CreateConversation` checks its arguments. -/
def create_error (req : conversation.CreateConversationReq) : Option ServiceError :=
  if req.type = .CONVERSATION_TYPE_UNSPECIFIED then
    some ⟨error.kSystemInvalidArgument, "conversation type must be specified"⟩
  else if req.type = .PRIVATE ∧ req.member_ids.length ≠ 1 then
    some ⟨error.kSystemInvalidArgument, "private requires exactly 1 peer"⟩
  else if req.type = .GROUP ∧ req.member_ids = [] then
    some ⟨error.kSystemInvalidArgument, "group needs initial members"⟩
  else none

/-- The type of the row. -/
def entity_type (type : conversation.ConversationType) : ConversationType :=
  if type = .PRIVATE then .PRIVATE else if type = .GROUP then .GROUP else .CHANNEL

theorem group_of_entity_type {type : conversation.ConversationType}
    (h : entity_type type = .GROUP) : type = .GROUP := by
  unfold entity_type at h
  split at h
  · cases h
  · split at h
    · next hgroup => exact hgroup
    · cases h

/-- The row of a new conversation, but for its times. -/
def new_conversation (auth_uid cid : String) (req : conversation.CreateConversationReq) :
    Conversation where
  conversation_id := cid
  conversation_name := req.name.getD ""
  conversation_type := entity_type req.type
  member_count := 1 + req.member_ids.length
  owner_id := if req.type = .GROUP then some auth_uid else none
  peer_user_id := if req.type = .PRIVATE then req.member_ids.head? else none
  avatar_id := req.avatar_url.getD ""
  description := req.description.getD ""

/-- The role of the one who creates it. -/
def owner_role (type : conversation.ConversationType) : MemberRole :=
  if type = .GROUP then .OWNER else .NORMAL

/-- The rows of its members: the caller, and the others but for the caller. -/
def new_members (auth_uid cid : String) (now : ℤ) (req : conversation.CreateConversationReq) :
    List ConversationMember :=
  { conversation_id := cid, user_id := auth_uid, role := owner_role req.type, join_time := now } ::
    (req.member_ids.filter (· ≠ auth_uid)).map fun mid ↦
      { conversation_id := cid, user_id := mid, join_time := now }

theorem conversation_id_of_mem_new_members {auth_uid cid : String} {now : ℤ}
    {req : conversation.CreateConversationReq} {m : ConversationMember}
    (hm : m ∈ new_members auth_uid cid now req) : m.conversation_id = cid := by
  rcases List.mem_cons.1 hm with rfl | hm
  · rfl
  · obtain ⟨mid, -, rfl⟩ := List.mem_map.1 hm
    rfl

/-- What `CreateConversation` answers for a new conversation. -/
def created_rsp (cfg : ConversationServiceConfig) (ent : Conversation) (now : ℤ)
    (req : conversation.CreateConversationReq) : conversation.Conversation where
  conversation_id := ent.conversation_id
  type := req.type
  name := ent.conversation_name
  avatar_url := if ent.avatar_id = "" then "" else avatar_url_of_ cfg ent.avatar_id
  member_count := 1 + req.member_ids.length
  status := ConversationStatus.NORMAL.toProto
  created_at_ms := ent.create_time
  self := some { role := (owner_role req.type).toProto, joined_at_ms := now }

/-- The rows of a new conversation are inserted. -/
def insert_conversation (cfg : ConversationServiceConfig) (auth_uid cid : String)
    (req : conversation.CreateConversationReq) : ConvM (Except ServiceError ConvRsp) := do
  match ← ConversationTable.insert (new_conversation auth_uid cid req) with
  | none => return .error ⟨error.kSystemInternalError, "insert conversation failed"⟩
  | some ent =>
    let now ← op clock
    if ← op (appendAfterCreate (new_members auth_uid cid now req)) then
      op (invalidate cid)
      op (esWrite (.upsert ent (auth_uid :: req.member_ids)))
      return .ok (.conversation (created_rsp cfg ent now req))
    else return .error ⟨error.kSystemInternalError, "insert members failed"⟩

/-- `CreateConversation`. -/
def CreateConversation (cfg : ConversationServiceConfig) (auth_uid : String)
    (req : conversation.CreateConversationReq) : ConvM (Except ServiceError ConvRsp) := do
  match create_error req with
  | some e => return .error e
  | none =>
    if req.type = .PRIVATE then
      let cid := private_id_of_ auth_uid (req.member_ids.headD "")
      if ← ConversationTable.exists cid then
        if ← require_member_ cid auth_uid then
          return .ok (.conversation { conversation_id := cid, type := req.type })
        else
          return .error ⟨error.kConversationNotMember,
            "conversation exists but you are not a member"⟩
      else insert_conversation cfg auth_uid cid req
    else
      let id ← op uuid
      insert_conversation cfg auth_uid ("g_" ++ id) req

/-! ### The conversation as a whole -/

/-- The fields of a request that are set. -/
def updated_conversation (c : Conversation) (req : conversation.UpdateConversationReq) :
    Conversation :=
  { c with
    conversation_name := req.name.getD c.conversation_name
    avatar_id := req.avatar_url.getD c.avatar_id
    description := req.description.getD c.description
    announcement := req.announcement.getD c.announcement }

/-- What `UpdateConversation` answers. -/
def updated_rsp (cfg : ConversationServiceConfig) (c : Conversation) :
    conversation.Conversation where
  conversation_id := c.conversation_id
  type := c.conversation_type.toProto
  name := c.conversation_name
  avatar_url := if c.avatar_id = "" then "" else avatar_url_of_ cfg c.avatar_id
  description := if c.description = "" then none else some c.description
  member_count := c.member_count
  status := c.status.toProto
  created_at_ms := c.create_time

/-- `UpdateConversation`. -/
def UpdateConversation (cfg : ConversationServiceConfig) (auth_uid : String)
    (req : conversation.UpdateConversationReq) : ConvM (Except ServiceError ConvRsp) := do
  let role ← role_of_ req.conversation_id auth_uid
  if role ≠ .OWNER ∧ role ≠ .ADMIN then
    return .error ⟨error.kConversationNoPermission, "owner/admin only"⟩
  else
    match ← op (selectConv req.conversation_id) with
    | none => return .error ⟨error.kConversationNotFound, "not found"⟩
    | some c =>
      match ← ConversationTable.update (updated_conversation c req) with
      | none => return .error ⟨error.kSystemInternalError, "update failed"⟩
      | some c =>
        let uids ← op (members req.conversation_id)
        op (esWrite (.upsert c uids))
        return .ok (.conversation (updated_rsp cfg c))

/-- `DismissConversation`. -/
def DismissConversation (auth_uid cid : String) : ConvM (Except ServiceError ConvRsp) := do
  let role ← role_of_ cid auth_uid
  if role ≠ .OWNER then return .error ⟨error.kConversationNoPermission, "owner only"⟩
  else if ← ConversationTable.update_status cid .DISMISSED then
    op (esWrite (.delete cid))
    op (invalidate cid)
    return .ok .empty
  else return .error ⟨error.kSystemInternalError, "update_status failed"⟩

/-! ### Members -/

/-- `QuitConversation`. -/
def QuitConversation (auth_uid cid : String) : ConvM (Except ServiceError ConvRsp) := do
  let role ← role_of_ cid auth_uid
  if role = .OWNER then
    return .error ⟨error.kConversationNoPermission, "owner must transfer first"⟩
  else if ← require_member_ cid auth_uid then
    if ← ConversationMemberTable.set_quit cid auth_uid then
      op (invalidate cid)
      publish_members cid
      return .ok .empty
    else return .error ⟨error.kSystemInternalError, "set_quit failed"⟩
  else return .error ⟨error.kConversationNotMember, "not a member"⟩

def kGroupMemberLimit : ℤ := 500

/-- One round of the loop of `AddMembers`. -/
def add_member (auth_uid cid : String) (now : ℤ) (uid : String) : ConvM Bool := do
  match ← op (selectMember cid uid) with
  | some m =>
    if m.is_quit then ConversationMemberTable.rejoin cid uid .NORMAL auth_uid .ADMIN_ADD
    else return true
  | none =>
    op (append
      { conversation_id := cid, user_id := uid, join_time := now
        inviter_id := some auth_uid, join_source := .ADMIN_ADD })

/-- The loop of `AddMembers`, which gives those who could not be added. -/
def add_loop (auth_uid cid : String) (now : ℤ) : List String → ConvM (List String)
  | [] => return []
  | uid :: uids => do
    let ok ← add_member auth_uid cid now uid
    let failed ← add_loop auth_uid cid now uids
    return if ok then failed else uid :: failed

/-- `AddMembers`. -/
def AddMembers (auth_uid : String) (req : conversation.MemberIdsReq) :
    ConvM (Except ServiceError ConvRsp) := do
  match ← op (selectConv req.conversation_id) with
  | none => return .error ⟨error.kConversationNotFound, "not found"⟩
  | some c =>
    if c.conversation_type ≠ .GROUP then
      return .error ⟨error.kSystemInvalidArgument, "only GROUP allows AddMembers"⟩
    else
      let role ← role_of_ req.conversation_id auth_uid
      if role ≠ .OWNER ∧ role ≠ .ADMIN then
        return .error ⟨error.kConversationNoPermission, "owner/admin only"⟩
      else if kGroupMemberLimit < c.member_count + req.member_ids.length then
        return .error ⟨error.kConversationMemberLimit, "member limit"⟩
      else
        let now ← op clock
        let failed ← add_loop auth_uid req.conversation_id now req.member_ids
        op (invalidate req.conversation_id)
        publish_members req.conversation_id
        return .ok (.failed_member_ids failed)

/-- The loop of `RemoveMembers`, which counts those who have been removed. -/
def remove_loop (auth_uid cid : String) : List String → ℕ → ConvM (Except ServiceError ℕ)
  | [], removed => return .ok removed
  | uid :: uids, removed => do
    if uid = auth_uid then return .error ⟨error.kSystemInvalidArgument, "cannot remove self"⟩
    else
      match ← op (selectMember cid uid) with
      | none => remove_loop auth_uid cid uids removed
      | some target =>
        if target.is_quit then remove_loop auth_uid cid uids removed
        else if target.role = .OWNER then
          return .error ⟨error.kConversationNoPermission, "owner cannot be removed"⟩
        else
          let _ ← ConversationMemberTable.set_quit cid uid
          remove_loop auth_uid cid uids (removed + 1)

/-- `RemoveMembers`. -/
def RemoveMembers (auth_uid : String) (req : conversation.MemberIdsReq) :
    ConvM (Except ServiceError ConvRsp) := do
  let role ← role_of_ req.conversation_id auth_uid
  if role ≠ .OWNER ∧ role ≠ .ADMIN then
    return .error ⟨error.kConversationNoPermission, "owner/admin only"⟩
  else
    match ← remove_loop auth_uid req.conversation_id req.member_ids 0 with
    | .error e => return .error e
    | .ok removed =>
      if 0 < removed then
        op (invalidate req.conversation_id)
        publish_members req.conversation_id
        return .ok .empty
      else return .ok .empty

/-- `TransferOwner`. -/
def TransferOwner (auth_uid : String) (req : conversation.TransferOwnerReq) :
    ConvM (Except ServiceError ConvRsp) := do
  let role ← role_of_ req.conversation_id auth_uid
  if role ≠ .OWNER then return .error ⟨error.kConversationNoPermission, "owner only"⟩
  else if ← require_member_ req.conversation_id req.new_owner_id then
    if ← op (transferOwner req.conversation_id auth_uid req.new_owner_id) then return .ok .empty
    else return .error ⟨error.kSystemInternalError, "transfer_owner failed"⟩
  else return .error ⟨error.kConversationNotMember, "new owner must be a member"⟩

/-- `ChangeMemberRole`. -/
def ChangeMemberRole (auth_uid : String) (req : conversation.ChangeMemberRoleReq) :
    ConvM (Except ServiceError ConvRsp) := do
  let role ← role_of_ req.conversation_id auth_uid
  if role ≠ .OWNER then return .error ⟨error.kConversationNoPermission, "owner only"⟩
  else if req.role = .OWNER then
    return .error ⟨error.kSystemInvalidArgument, "use TransferOwner to assign OWNER"⟩
  else
    match ← op (selectMember req.conversation_id req.target_user_id) with
    | none => return .error ⟨error.kConversationNotMember, "target not in conversation"⟩
    | some target =>
      if target.is_quit then
        return .error ⟨error.kConversationNotMember, "target not in conversation"⟩
      else if target.role = .OWNER then
        return .error ⟨error.kConversationNoPermission, "cannot change OWNER's role"⟩
      else
        let target_role : MemberRole := if req.role = .ADMIN then .ADMIN else .NORMAL
        let _ ← ConversationMemberTable.update_role req.conversation_id req.target_user_id
          target_role
        return .ok .empty

/-! ### A member's own preferences -/

/-- An RPC that sets a preference: the row is read, set and written back. -/
def set_preference (auth_uid cid : String) (set : ConversationMember → ConvM ConversationMember) :
    ConvM (Except ServiceError ConvRsp) := do
  match ← op (selectMember cid auth_uid) with
  | none => return .error ⟨error.kConversationNotMember, "not member"⟩
  | some m =>
    if m.is_quit then return .error ⟨error.kConversationNotMember, "not member"⟩
    else
      let m ← set m
      if ← op (updateMember m) then
        let rsp ← self_of cid m
        return .ok rsp
      else return .error ⟨error.kSystemInternalError, "update failed"⟩

/-- `SetMute`. -/
def SetMute (auth_uid cid : String) (mute : Bool) : ConvM (Except ServiceError ConvRsp) :=
  set_preference auth_uid cid fun m ↦ return { m with muted := mute }

/-- `SetPin`. -/
def SetPin (auth_uid cid : String) (pin : Bool) : ConvM (Except ServiceError ConvRsp) :=
  set_preference auth_uid cid fun m ↦ do
    if pin then
      let now ← op clock
      return { m with pin_time := some now }
    else return { m with pin_time := none }

/-- `SetVisible`. -/
def SetVisible (auth_uid cid : String) (visible : Bool) : ConvM (Except ServiceError ConvRsp) :=
  set_preference auth_uid cid fun m ↦ return { m with visible := visible }

/-- `SaveDraft`, which does not ask whether the member has quit. -/
def SaveDraft (auth_uid cid draft : String) : ConvM (Except ServiceError ConvRsp) := do
  if ← ConversationMemberTable.update_draft cid auth_uid draft then
    let m ← op (selectMember cid auth_uid)
    let c ← op (selectConv cid)
    return .ok (.self (m.map fun m ↦
      fill_self_member_info_ m ((c.map (·.max_seq)).getD 0)))
  else return .error ⟨error.kConversationNotMember, "not member or draft update failed"⟩

/-! ### Cursors -/

/-- `MarkRead`. -/
def MarkRead (auth_uid cid : String) (last_read_seq : ℕ) : ConvM (Except ServiceError ConvRsp) := do
  if ← require_member_ cid auth_uid then
    let _ ← op (updateLastReadSeq cid auth_uid last_read_seq)
    return .ok .empty
  else return .error ⟨error.kConversationNotMember, "not member"⟩

def kSystemUserId : String := "__system__"

/-- `require_member_` of the message service. -/
def MessageService.require_member_ (cid uid : String) : ConvM Bool :=
  if uid = kSystemUserId then return true else ChatNow.require_member_ cid uid

/-- `UpdateReadAck`. -/
def UpdateReadAck (auth_uid cid : String) (seq_id : ℕ) : ConvM (Except ServiceError ConvRsp) := do
  if seq_id = 0 then return .error ⟨error.kSystemInvalidArgument, "seq_id required"⟩
  else if ← MessageService.require_member_ cid auth_uid then
    if ← op (updateLastAckSeq cid auth_uid seq_id) then return .ok .empty
    else return .error ⟨error.kSystemInternalError, "update last_ack_seq failed"⟩
  else return .error ⟨error.kConversationNotMember, "user not member of conversation"⟩

/-! ### Requests -/

/-- A request. -/
inductive ConvReq
  | create (req : conversation.CreateConversationReq)
  | update (req : conversation.UpdateConversationReq)
  | dismiss (cid : String)
  | quit (cid : String)
  | add (req : conversation.MemberIdsReq)
  | remove (req : conversation.MemberIdsReq)
  | transfer (req : conversation.TransferOwnerReq)
  | changeRole (req : conversation.ChangeMemberRoleReq)
  | mute (cid : String) (mute : Bool)
  | pin (cid : String) (pin : Bool)
  | visible (cid : String) (visible : Bool)
  | draft (cid draft : String)
  | read (cid : String) (last_read_seq : ℕ)
  | ack (cid : String) (seq_id : ℕ)

/-- What the service does with it, up to the response. -/
def ConvReq.body (cfg : ConversationServiceConfig) (auth_uid : String) :
    ConvReq → ConvM (Except ServiceError ConvRsp)
  | create req => CreateConversation cfg auth_uid req
  | update req => UpdateConversation cfg auth_uid req
  | dismiss cid => DismissConversation auth_uid cid
  | quit cid => QuitConversation auth_uid cid
  | add req => AddMembers auth_uid req
  | remove req => RemoveMembers auth_uid req
  | transfer req => TransferOwner auth_uid req
  | changeRole req => ChangeMemberRole auth_uid req
  | mute cid b => SetMute auth_uid cid b
  | pin cid b => SetPin auth_uid cid b
  | visible cid b => SetVisible auth_uid cid b
  | draft cid text => SaveDraft auth_uid cid text
  | read cid seq => MarkRead auth_uid cid seq
  | ack cid seq => UpdateReadAck auth_uid cid seq

/-- `HANDLE_RPC`. -/
def handle_rpc (cfg : ConversationServiceConfig) (auth_uid : String) (req : ConvReq) :
    ConvM Unit := do
  let rsp ← req.body cfg auth_uid
  op (respond rsp)

end ChatNow
