import Mathlib.Init

/-!
# Error codes

The constants of `common/error/error_codes.hpp` that the modelled handlers use, and the exception
that carries one.
-/

namespace ChatNow

namespace error

def kOK : Int32 := 0
def kAuthInvalidCredentials : Int32 := 1001
def kAuthTokenExpired : Int32 := 1002
def kAuthTokenInvalid : Int32 := 1003
def kAuthUserNotFound : Int32 := 1004
def kAuthUserAlreadyExists : Int32 := 1005
def kAuthRefreshTokenReused : Int32 := 1008
def kRelationshipAlreadyFriends : Int32 := 2001
def kRelationshipNotFriends : Int32 := 2002
def kRelationshipBlocked : Int32 := 2003
def kRelationshipRequestPending : Int32 := 2004
def kConversationNotFound : Int32 := 3001
def kConversationNotMember : Int32 := 3002
def kConversationNoPermission : Int32 := 3003
def kConversationMemberLimit : Int32 := 3004
def kMessageNotFound : Int32 := 4001
def kMessageRecallTimeout : Int32 := 4002
def kMessageAlreadyRecalled : Int32 := 4003
def kMessageContentInvalid : Int32 := 4004
def kMediaFileTooLarge : Int32 := 5001
def kMediaUnsupportedFormat : Int32 := 5002
def kMediaUploadFailed : Int32 := 5003
def kMediaQuotaExceeded : Int32 := 5004
def kMediaHashMismatch : Int32 := 5005
def kMediaUploadIncomplete : Int32 := 5006
def kMediaPartNotFound : Int32 := 5007
def kMediaFileNotFound : Int32 := 5008
def kSystemInternalError : Int32 := 9001
def kSystemUnavailable : Int32 := 9002
def kSystemTimeout : Int32 := 9003
def kSystemInvalidArgument : Int32 := 9004
def kNotImplemented : Int32 := 9005

end error

/-- `ServiceError`: a code and the text that is shown with it. -/
structure ServiceError where
  code : Int32
  message : String
  deriving DecidableEq

end ChatNow
