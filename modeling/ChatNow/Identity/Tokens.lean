import ChatNow.Common.JwtCodec
import ChatNow.Lib.Prog
import ChatNow.Pipeline.Signature

/-!
# Logging in and out, and refreshing

`JwtStore` of `common/auth/jwt_store.hpp`, and the RPCs of `identity/source/identity_server.h` that
use it: `Login`, `Logout` and `RefreshToken`.

Redis has three keys for tokens. `revoked` is the blacklist, by the id of a token; `rt` holds, for a
user and a device, the id of the refresh token that may be used; `rt_chain` marks a refresh token
that has been exchanged, and is set with `NX`. One command is one operation, and between two of them
anything may happen. A method swallows what Redis throws and goes on with a cautious answer.

`random_jti` and the signing after it touch nothing that is shared; they are one operation, which
gives the id and the text of a new token.
-/

namespace ChatNow

open Prog

/-! ### Messages -/

/-- `AuthTokens`. -/
structure AuthTokens where
  access_token : String
  refresh_token : String
  access_expires_in_sec : ℤ
  refresh_expires_in_sec : ℤ
  deriving DecidableEq

/-- What an RPC answers beside its header. -/
inductive AuthRsp
  | empty
  /-- Tokens, for a user with an id and a nickname where these are told. -/
  | tokens (t : AuthTokens) (user_info : Option (String × String))
  deriving DecidableEq

/-- The credential of a `LoginReq`. -/
inductive Credential
  | none
  | phone_code
  | username_pwd (username password : String)
  deriving DecidableEq

/-- `LoginReq`. -/
structure LoginReq where
  credential : Credential
  device_id : String := ""
  deriving DecidableEq

/-- `AuthContext`, as the gateway has put it into the metadata of a call. -/
structure AuthContext where
  user_id : String
  device_id : String
  jwt_jti : String
  deriving DecidableEq

/-! ### Operations -/

/-- The operations of the identity service. -/
inductive AuthOp
  /-- `system_clock::now`, in seconds. -/
  | clock
  /-- `JwtCodec::verify`. -/
  | verify (token : String) (require_refresh : Bool)
  /-- `random_jti` and `sign_access` or `sign_refresh`: the id and the text. -/
  | issue (user_id device_id : String) (is_refresh : Bool)
  /-- `select_by_nickname` and `check_password`: the id and the nickname of the user. -/
  | credentials (username password : String)
  /-- `SET` of a blacklist key. -/
  | setRevoked (jti : String) (ttl_sec : ℤ)
  /-- `GET` of a blacklist key: whether it has a value. -/
  | getRevoked (jti : String)
  /-- `SET` of the refresh key of a device. -/
  | setActive (user_id device_id refresh_jti : String) (ttl_sec : ℤ)
  /-- `GET` of that key. -/
  | getActive (user_id device_id : String)
  /-- `DEL` of that key. -/
  | delActive (user_id device_id : String)
  /-- `SET NX` of a chain key: whether it has been set. -/
  | setChain (old_jti : String) (ttl_sec : ℤ)
  /-- The response is sent. -/
  | respond (rsp : Except ServiceError AuthRsp)

/-- What each operation answers. -/
@[reducible]
def AuthOp.Res : AuthOp → Type
  | clock => ℤ
  | verify _ _ => Except JwtThrown TokenClaims
  | issue _ _ _ => String × String
  | credentials _ _ => Option (String × String)
  | setRevoked _ _ => Reply Unit
  | getRevoked _ => Reply Bool
  | setActive _ _ _ _ => Reply Unit
  | getActive _ _ => Reply (Option String)
  | delActive _ _ => Reply Unit
  | setChain _ _ => Reply Bool
  | respond _ => Unit

/-- Programs of the identity service. -/
abbrev AuthM := Prog AuthOp AuthOp.Res

open AuthOp

/-! ### `JwtStore` -/

namespace JwtStore

def kChainTtlSec : ℤ := 24 * 3600

/-- `revoke`. -/
def revoke (jti : String) (ttl_sec : ℤ) : AuthM Unit := do
  if jti = "" ∨ ttl_sec ≤ 0 then return ()
  else
    let _ ← op (setRevoked jti ttl_sec)
    return ()

/-- `is_revoked`. -/
def is_revoked (jti : String) : AuthM Bool := do
  if jti = "" then return false
  else
    match ← op (getRevoked jti) with
    | .ok there => return there
    | .thrown => return false

/-- `put_active_refresh`. -/
def put_active_refresh (user_id device_id refresh_jti : String) (ttl_sec : ℤ) : AuthM Unit := do
  if user_id = "" ∨ device_id = "" ∨ refresh_jti = "" then return ()
  else
    let _ ← op (setActive user_id device_id refresh_jti ttl_sec)
    return ()

/-- `get_active_refresh`. -/
def get_active_refresh (user_id device_id : String) : AuthM String := do
  match ← op (getActive user_id device_id) with
  | .ok v => return v.getD ""
  | .thrown => return ""

/-- `clear_active_refresh`. -/
def clear_active_refresh (user_id device_id : String) : AuthM Unit := do
  let _ ← op (delActive user_id device_id)
  return ()

/-- `RotateResult`. -/
inductive RotateResult
  | kOk
  | kReuseDetected
  deriving DecidableEq

/-- `rotate_refresh_or_detect_reuse`. -/
def rotate_refresh_or_detect_reuse (user_id device_id old_refresh_jti new_refresh_jti : String)
    (new_refresh_ttl_sec : ℤ) : AuthM RotateResult := do
  match ← op (setChain old_refresh_jti kChainTtlSec) with
  | .ok false => return .kReuseDetected
  | _ =>
    put_active_refresh user_id device_id new_refresh_jti new_refresh_ttl_sec
    return .kOk

end JwtStore

/-! ### The RPCs -/

section Rpcs

variable (cfg : JwtConfig)

/-- What `Login` and `RefreshToken` answer. -/
def auth_tokens (access_token refresh_token : String) : AuthTokens where
  access_token := access_token
  refresh_token := refresh_token
  access_expires_in_sec := cfg.access_ttl_sec
  refresh_expires_in_sec := cfg.refresh_ttl_sec

/-- What `Login` does for a user whose password is right. -/
def login_user (user_id nickname device_id : String) : AuthM AuthRsp := do
  let (_, access_tok) ← op (issue user_id device_id false)
  let (refresh_jti, refresh_tok) ← op (issue user_id device_id true)
  JwtStore.put_active_refresh user_id device_id refresh_jti cfg.refresh_ttl_sec
  return .tokens (auth_tokens cfg access_tok refresh_tok) (some (user_id, nickname))

/-- The body of `Login`. -/
def login_body (req : LoginReq) : AuthM (Except ServiceError AuthRsp) := do
  match req.credential with
  | .phone_code => return .error ⟨error.kNotImplemented, "phone_code login not yet supported"⟩
  | .none => return .error ⟨error.kAuthInvalidCredentials, "no valid credential provided"⟩
  | .username_pwd username password =>
    match ← op (credentials username password) with
    | none => return .error ⟨error.kAuthInvalidCredentials, "username or password incorrect"⟩
    | some (user_id, nickname) =>
      let device_id := if req.device_id = "" then "unknown_device" else req.device_id
      let rsp ← login_user cfg user_id nickname device_id
      return .ok rsp

/-- `Login`. -/
def Login (req : LoginReq) : AuthM Unit := do
  let rsp ← login_body cfg req
  op (respond rsp)

/-- The body of `Logout`. -/
def logout_body (ctx : AuthContext) : AuthM Unit := do
  JwtStore.revoke ctx.jwt_jti cfg.access_ttl_sec
  let rt_jti ← JwtStore.get_active_refresh ctx.user_id ctx.device_id
  if rt_jti ≠ "" then
    JwtStore.revoke rt_jti cfg.refresh_ttl_sec
    JwtStore.clear_active_refresh ctx.user_id ctx.device_id

/-- `Logout`, for a call with the metadata of a user. -/
def Logout (ctx : AuthContext) : AuthM Unit := do
  logout_body cfg ctx
  op (respond (.ok .empty))

/-- The answer to a refresh token that somebody else has used. -/
def reject_reused (claims : TokenClaims) (message : String) :
    AuthM (Except ServiceError AuthRsp) := do
  JwtStore.revoke claims.jti cfg.refresh_ttl_sec
  JwtStore.clear_active_refresh claims.sub claims.did
  return .error ⟨error.kAuthRefreshTokenReused, message⟩

/-- New tokens for those of a refresh token that may be used. -/
def exchange (claims : TokenClaims) : AuthM (Except ServiceError AuthRsp) := do
  let (_, new_access) ← op (issue claims.sub claims.did false)
  let (new_refresh_jti, new_refresh) ← op (issue claims.sub claims.did true)
  match ← JwtStore.rotate_refresh_or_detect_reuse claims.sub claims.did claims.jti new_refresh_jti
      cfg.refresh_ttl_sec with
  | .kReuseDetected => reject_reused cfg claims "refresh chain reuse detected"
  | .kOk =>
    let now ← op clock
    JwtStore.revoke claims.jti (claims.exp_sec - now)
    return .ok (.tokens (auth_tokens cfg new_access new_refresh) none)

/-- The body of `RefreshToken`. -/
def refresh_body (refresh_token : String) : AuthM (Except ServiceError AuthRsp) := do
  match ← op (verify refresh_token true) with
  | .error (.service e) => return .error e
  | .error .other => return .error ⟨error.kSystemInternalError, "internal error"⟩
  | .ok claims =>
    if ← JwtStore.is_revoked claims.jti then
      return .error ⟨error.kAuthTokenInvalid, "refresh token revoked"⟩
    else
      let active ← JwtStore.get_active_refresh claims.sub claims.did
      if active ≠ claims.jti then reject_reused cfg claims "refresh token mismatch active"
      else exchange cfg claims

/-- `RefreshToken`. -/
def RefreshToken (refresh_token : String) : AuthM Unit := do
  let rsp ← refresh_body cfg refresh_token
  op (respond rsp)

end Rpcs

end ChatNow
