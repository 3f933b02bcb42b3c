import Mathlib.Data.Int.Notation
import Mathlib.Data.Nat.Notation

/-!
# The conversation schema

The records of `proto/conversation/conversation_service.proto` that the write paths of the
conversation service read and fill, and `UpdateReadAckReq` of the message service. The generated
enums and the enums of the tables have the same names; the generated ones are kept apart by the
namespace they have in the source, `chatnow::conversation`.
-/

namespace ChatNow

namespace conversation

/-- `ConversationType`, an open enum. -/
structure ConversationType where
  /-- The number on the wire. -/
  num : Int32
  deriving DecidableEq, Inhabited

namespace ConversationType

def CONVERSATION_TYPE_UNSPECIFIED : ConversationType := ⟨0⟩
def PRIVATE : ConversationType := ⟨1⟩
def GROUP : ConversationType := ⟨2⟩
def CHANNEL : ConversationType := ⟨3⟩

end ConversationType

/-- `ConversationStatus`, an open enum. -/
structure ConversationStatus where
  /-- The number on the wire. -/
  num : Int32
  deriving DecidableEq, Inhabited

/-- `MemberRole`, an open enum. -/
structure MemberRole where
  /-- The number on the wire. -/
  num : Int32
  deriving DecidableEq, Inhabited

namespace MemberRole

def MEMBER : MemberRole := ⟨0⟩
def ADMIN : MemberRole := ⟨1⟩
def OWNER : MemberRole := ⟨2⟩

end MemberRole

/-- `SelfMemberInfo`. -/
structure SelfMemberInfo where
  role : MemberRole := .MEMBER
  joined_at_ms : ℤ := 0
  is_muted : Bool := false
  is_pinned : Bool := false
  pin_time_ms : ℤ := 0
  is_visible : Bool := false
  last_read_seq : ℕ := 0
  unread_count : ℕ := 0
  draft : Option String := none
  deriving DecidableEq

/-- `Conversation`. -/
structure Conversation where
  conversation_id : String := ""
  type : ConversationType := .CONVERSATION_TYPE_UNSPECIFIED
  name : String := ""
  avatar_url : String := ""
  description : Option String := none
  created_at_ms : ℤ := 0
  member_count : ℤ := 0
  status : ConversationStatus := ⟨0⟩
  self : Option SelfMemberInfo := none
  deriving DecidableEq

/-! ### Requests -/

structure CreateConversationReq where
  request_id : String := ""
  type : ConversationType
  name : Option String := none
  avatar_url : Option String := none
  description : Option String := none
  member_ids : List String
  deriving DecidableEq

structure UpdateConversationReq where
  request_id : String := ""
  conversation_id : String
  name : Option String := none
  avatar_url : Option String := none
  description : Option String := none
  announcement : Option String := none

/-- `AddMembersReq` and `RemoveMembersReq`. -/
structure MemberIdsReq where
  request_id : String := ""
  conversation_id : String
  member_ids : List String

structure TransferOwnerReq where
  request_id : String := ""
  conversation_id : String
  new_owner_id : String

structure ChangeMemberRoleReq where
  request_id : String := ""
  conversation_id : String
  target_user_id : String
  role : MemberRole

end conversation

end ChatNow
