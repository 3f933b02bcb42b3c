import ChatNow.Identity.Tokens

/-!
# Authentication at the gateway

`jwt_authenticate` of `gateway/source/gateway_auth.hpp`, through which every HTTP request goes. A
route is on the whitelist or asks for a token; a token is one that the codec accepts and that is not
on the blacklist.

What is refused is answered with status 401 and a `ResponseHeader`; the error has its code and its
message.
-/

namespace ChatNow

open Prog AuthOp

/-- `AuthInfo`. -/
structure AuthInfo where
  authed : Bool := false
  user_id : String := ""
  device_id : String := ""
  jwt_jti : String := ""
  deriving DecidableEq

namespace Gateway

def kPrefix : String := "Bearer "

/-- The token in an `Authorization` header. -/
def bearer_token (auth_header : String) : Option String :=
  if auth_header.toList.length ≤ kPrefix.toList.length ∨
      kPrefix.toList.isPrefixOf auth_header.toList = false then none
  else some (String.ofList (auth_header.toList.drop kPrefix.toList.length))

/-- What is read of a token. -/
def auth_info (claims : TokenClaims) : AuthInfo where
  authed := true
  user_id := claims.sub
  device_id := claims.did
  jwt_jti := claims.jti

/-- `jwt_authenticate`, for a request with the header, if it has one. -/
def jwt_authenticate (authorization : Option String) (whitelisted : Bool) :
    AuthM (Except ServiceError AuthInfo) := do
  if whitelisted then return .ok {}
  match authorization with
  | none => return .error ⟨error.kAuthTokenInvalid, "missing Authorization"⟩
  | some auth_header =>
    match bearer_token auth_header with
    | none => return .error ⟨error.kAuthTokenInvalid, "missing Bearer prefix"⟩
    | some token =>
      match ← op (verify token false) with
      | .error (.service e) => return .error e
      | .error .other => return .error ⟨error.kSystemInternalError, "auth internal error"⟩
      | .ok claims =>
        if ← JwtStore.is_revoked claims.jti then
          return .error ⟨error.kAuthTokenInvalid, "token revoked"⟩
        else return .ok (auth_info claims)

/-- A header that has been made for a token. -/
theorem bearer_token_append {token : String} (h : token ≠ "") :
    bearer_token (kPrefix ++ token) = some token := by
  have hne : token.toList ≠ [] := fun hnil ↦ h (String.toList_eq_nil_iff.1 hnil)
  have hpos : 0 < token.toList.length := List.length_pos_iff.2 hne
  have hprefix : kPrefix.toList.isPrefixOf (kPrefix.toList ++ token.toList) = true :=
    List.isPrefixOf_iff_prefix.2 (List.prefix_append _ _)
  rw [bearer_token, String.toList_append, List.length_append, hprefix, if_neg]
  · rw [List.drop_left, String.ofList_toList]
  · rintro (hle | hfalse)
    · omega
    · cases hfalse

end Gateway

end ChatNow
