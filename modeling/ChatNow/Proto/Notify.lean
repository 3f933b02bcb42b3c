import ChatNow.Proto.Message

/-!
# The notification schema

`NotifyMessage` of `proto/push/notify.proto` and the push service's `PushBatchReq`, with the three
notifications that travel through the push exchange: new messages, recalls and pins. The other
alternatives of `notify_remarks` are sent by RPC or by clients and no modelled function reads them.
-/

namespace ChatNow

/-- `NotifyType`, an open enum. -/
structure NotifyType where
  /-- The number on the wire. -/
  num : Int32
  deriving DecidableEq, Inhabited

namespace NotifyType

def FRIEND_ADD_APPLY_NOTIFY : NotifyType := ⟨0⟩
def CHAT_MESSAGE_NOTIFY : NotifyType := ⟨3⟩
def MESSAGE_RECALLED_NOTIFY : NotifyType := ⟨5⟩
def PIN_CHANGED_NOTIFY : NotifyType := ⟨9⟩
def CLIENT_AUTH : NotifyType := ⟨49⟩
def MSG_PUSH_ACK : NotifyType := ⟨50⟩
def CLIENT_HEARTBEAT : NotifyType := ⟨51⟩

end NotifyType

/-- `NotifyNewMessage`. -/
structure NotifyNewMessage where
  message_info : Message := {}
  deriving DecidableEq, Inhabited

/-- `NotifyMessageRecalled`. -/
structure NotifyMessageRecalled where
  conversation_id : String := ""
  message_id : Int64 := 0
  deriving DecidableEq, Inhabited

/-- `NotifyPinChanged`. -/
structure NotifyPinChanged where
  conversation_id : String := ""
  message_id : Int64 := 0
  actor_user_id : String := ""
  is_pinned : Bool := false
  deriving DecidableEq, Inhabited

/-- The modelled alternatives of `notify_remarks`. -/
inductive NotifyRemarks
  | new_message_info (n : NotifyNewMessage)
  | message_recalled (n : NotifyMessageRecalled)
  | pin_changed (n : NotifyPinChanged)
  deriving DecidableEq

/-- `NotifyMessage`. -/
structure NotifyMessage where
  notify_event_id : Option String := none
  notify_type : NotifyType := .FRIEND_ADD_APPLY_NOTIFY
  trace_id : Option String := none
  remarks : Option NotifyRemarks := none
  deriving DecidableEq, Inhabited

/-- `PushBatchReq`. -/
structure PushBatchReq where
  request_id : String := ""
  user_id_list : List String := []
  notify : NotifyMessage := {}
  user_seqs : List UserSeqPair := []
  deriving DecidableEq, Inhabited

end ChatNow
