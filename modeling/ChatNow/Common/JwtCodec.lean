import ChatNow.Common.ErrorCodes
import Mathlib.Data.Rat.Cast.Order
import Mathlib.Algebra.Order.Ring.Rat

/-!
# The token codec

`JwtCodec::verify` of `common/auth/jwt_codec.hpp`: whether a text is a token of this system, and
what it claims. By design it does not look at the blacklist, which is in Redis.

The library that parses and checks tokens is a parameter (`JwtLib`). A text that is missing or is
no text is `none`. Of the other claims both are told apart (`JwtClaim`): to read one of them that is
not there, or has another type, throws an exception of the library, which is no `ServiceError`.
Times are in seconds. A clock also has their fractions; the dates of a token are whole. The clock is
read twice: by the codec itself for the expiry (`now`), and once more by the verifier of the library
(`later`), in any relation to each other, as a system clock can be set.
-/

namespace ChatNow

/-- The claims of a token that are read. -/
structure JwtClaims where
  sub : String
  did : String
  jti : String
  deriving DecidableEq

/-- `JwtClaims`, with the fields that the push service does not read. -/
structure TokenClaims extends JwtClaims where
  kid : String
  iat_sec : ℤ
  exp_sec : ℤ
  is_refresh : Bool
  deriving DecidableEq

/-- What `validate_or_throw` lets through; `current_kid` has a key. -/
structure JwtConfig where
  current_kid : String
  keys : List (String × String)
  access_ttl_sec : ℤ := 7200
  refresh_ttl_sec : ℤ := 2592000
  current_key : String
  current_key_mem : keys.lookup current_kid = some current_key
  access_ttl_pos : 0 < access_ttl_sec
  refresh_ttl_pos : 0 < refresh_ttl_sec

/-- A claim, as its reader takes it. -/
inductive JwtClaim (α : Type)
  | absent
  /-- It has a value of another type. -/
  | malformed
  | value (a : α)
  deriving DecidableEq

namespace JwtClaim

variable {α : Type}

/-- There is a value, and it satisfies `p`. -/
def any (p : α → Bool) : JwtClaim α → Bool
  | value a => p a
  | _ => false

@[simp] theorem any_value (p : α → Bool) (a : α) : (value a).any p = p a := rfl

end JwtClaim

/-- What a token claims. -/
structure DecodedClaims where
  algorithm : JwtClaim String
  key_id : JwtClaim String
  issued_at : JwtClaim ℤ
  expires_at : JwtClaim ℤ
  not_before : JwtClaim ℤ := .absent
  sub : Option String
  did : Option String
  jti : Option String
  typ : Option String := none
  deriving DecidableEq

/-- A token that has been parsed. -/
structure DecodedJwt extends DecodedClaims where
  /-- The first two parts of the text, which are what is signed. -/
  data : String
  signature : String
  deriving DecidableEq

/-- What is used of the token library. -/
structure JwtLib where
  /-- `jwt::decode`. -/
  decode : String → Option DecodedJwt
  /-- `verify` for HS256 with a key and a leeway, at a time; the text is that of its exception. -/
  verify : (key : String) → (leeway : ℤ) → (now : ℚ) → DecodedJwt → Except String Unit

/-- Whose token a text is, whether or not it is valid. -/
def JwtLib.reads (lib : JwtLib) (token : String) : Option JwtClaims := do
  let d ← lib.decode token
  return { sub := ← d.sub, did := ← d.did, jti := ← d.jti }

/-- What `verify` throws. -/
inductive JwtThrown
  | service (e : ServiceError)
  /-- An exception of the library. -/
  | other
  deriving DecidableEq

namespace JwtCodec

variable (cfg : JwtConfig) (lib : JwtLib) (now later : ℚ)

/-- The claims of a token that has passed the checks. -/
def read_claims (d : DecodedJwt) (kid : String) (require_refresh : Bool) :
    Except JwtThrown TokenClaims :=
  match d.sub, d.did, d.jti with
  | some sub, some did, some jti =>
    match d.issued_at, d.expires_at with
    | .value iat_sec, .value exp_sec =>
      let is_refresh := d.typ == some "refresh"
      if require_refresh ≠ is_refresh then
        .error (.service ⟨error.kAuthTokenInvalid,
          if require_refresh then "expected refresh token" else "unexpected refresh token"⟩)
      else .ok { sub, did, jti, kid, iat_sec, exp_sec, is_refresh }
    | _, _ => .error .other
  | _, _, _ => .error (.service ⟨error.kAuthTokenInvalid, "claims missing sub/did/jti"⟩)

/-- What `verify` does when the key of the token is known. -/
def verify_with (key kid : String) (d : DecodedJwt) (require_refresh : Bool) :
    Except JwtThrown TokenClaims :=
  if d.expires_at = .malformed then .error .other
  else if d.expires_at.any (fun exp : ℤ ↦ (exp : ℚ) ≤ now) then
    match lib.verify key 60 later d with
    | .error _ => .error (.service ⟨error.kAuthTokenInvalid, "signature invalid"⟩)
    | .ok () => .error (.service ⟨error.kAuthTokenExpired, "token expired"⟩)
  else
    match lib.verify key 0 later d with
    | .error what => .error (.service ⟨error.kAuthTokenInvalid, "verify failed: " ++ what⟩)
    | .ok () => read_claims d kid require_refresh

/-- `JwtCodec::verify`. -/
def verify (token : String) (require_refresh : Bool) : Except JwtThrown TokenClaims :=
  match lib.decode token with
  | none => .error (.service ⟨error.kAuthTokenInvalid, "token decode failed"⟩)
  | some d =>
    match d.algorithm with
    | .value algorithm =>
      if algorithm ≠ "HS256" then .error (.service ⟨error.kAuthTokenInvalid, "alg not HS256"⟩)
      else
        match d.key_id with
        | .absent => .error (.service ⟨error.kAuthTokenInvalid, "missing kid"⟩)
        | .malformed => .error .other
        | .value kid =>
          match cfg.keys.lookup kid with
          | none => .error (.service ⟨error.kAuthTokenInvalid, "unknown kid: " ++ kid⟩)
          | some key => verify_with lib now later key kid d require_refresh
    | _ => .error .other

variable {cfg lib now later}

theorem read_claims_ok {d : DecodedJwt} {kid : String} {require_refresh : Bool} {c : TokenClaims}
    (h : read_claims d kid require_refresh = .ok c) :
    d.sub = some c.sub ∧ d.did = some c.did ∧ d.jti = some c.jti ∧
      d.expires_at = .value c.exp_sec ∧ c.is_refresh = require_refresh := by
  unfold read_claims at h
  split at h
  · next sub did jti hsub hdid hjti =>
    split at h
    · next iat exp hiat hexp =>
      simp only [ne_eq, ite_not] at h
      split at h
      · next heq =>
        obtain rfl := Except.ok.inj h
        exact ⟨hsub, hdid, hjti, hexp, heq.symm⟩
      · cases h
    · cases h
  · cases h

/-- The token has been made for this codec: the key by which it is to be checked is known. -/
structure Keyed (cfg : JwtConfig) (d : DecodedClaims) (kid key : String) : Prop where
  algorithm : d.algorithm = .value "HS256"
  key_id : d.key_id = .value kid
  known : cfg.keys.lookup kid = some key

/-- Everything else is left to the check with the key. -/
theorem verify_of_keyed {token : String} {d : DecodedJwt} {kid key : String}
    {require_refresh : Bool} (hd : lib.decode token = some d)
    (h : Keyed cfg d.toDecodedClaims kid key) :
    verify cfg lib now later token require_refresh =
      verify_with lib now later key kid d require_refresh := by
  rw [verify, hd]
  simp only [h.algorithm, h.key_id, h.known]
  rfl

/-- What `verify` answers when there is no key to check the token with. -/
theorem verify_cases (cfg : JwtConfig) (lib : JwtLib) (now later : ℚ) (token : String)
    (require_refresh : Bool) :
    (∃ d kid key, lib.decode token = some d ∧ Keyed cfg d.toDecodedClaims kid key) ∨
      verify cfg lib now later token require_refresh = .error .other ∨
      ∃ message, verify cfg lib now later token require_refresh =
        .error (.service ⟨error.kAuthTokenInvalid, message⟩) := by
  rw [verify]
  cases hd : lib.decode token with
  | none => exact .inr (.inr ⟨_, rfl⟩)
  | some d =>
    cases halg : d.algorithm with
    | absent => exact .inr (.inl (by simp only [halg]))
    | malformed => exact .inr (.inl (by simp only [halg]))
    | value algorithm =>
      by_cases hs256 : algorithm = "HS256"
      · cases hkid : d.key_id with
        | absent => exact .inr (.inr ⟨_, by simp only [halg, hkid, ne_eq, hs256]; rfl⟩)
        | malformed => exact .inr (.inl (by simp only [halg, hkid, ne_eq, hs256]; rfl))
        | value kid =>
          cases hkey : cfg.keys.lookup kid with
          | none => exact .inr (.inr ⟨_, by simp only [halg, hkid, hkey, ne_eq, hs256]; rfl⟩)
          | some key => exact .inl ⟨d, kid, key, rfl, hs256 ▸ halg, hkid, hkey⟩
      · exact .inr (.inr ⟨_, by simp only [halg]; exact if_pos hs256⟩)

theorem verify_with_ok {key kid : String} {d : DecodedJwt} {require_refresh : Bool}
    {c : TokenClaims} (h : verify_with lib now later key kid d require_refresh = .ok c) :
    d.expires_at.any (fun exp : ℤ ↦ (exp : ℚ) ≤ now) = false ∧ lib.verify key 0 later d = .ok () ∧
      read_claims d kid require_refresh = .ok c := by
  unfold verify_with at h
  split at h
  · cases h
  · split at h
    · split at h <;> cases h
    · next hexp =>
      split at h
      · cases h
      · next hverify => exact ⟨Bool.eq_false_iff.2 hexp, hverify, h⟩

/-- A token that is accepted is one that the library can parse; its claims are those it carries,
and it has not expired. -/
theorem verify_ok {token : String} {require_refresh : Bool} {c : TokenClaims}
    (h : verify cfg lib now later token require_refresh = .ok c) :
    ∃ d, lib.decode token = some d ∧ d.sub = some c.sub ∧ d.did = some c.did ∧
      d.jti = some c.jti ∧ d.expires_at = .value c.exp_sec ∧ c.is_refresh = require_refresh ∧
      now < c.exp_sec := by
  obtain ⟨d, kid, key, hd, hkeyed⟩ | hother | ⟨message, hinvalid⟩ :=
    verify_cases cfg lib now later token require_refresh
  · rw [verify_of_keyed hd hkeyed] at h
    obtain ⟨hexp, -, hread⟩ := verify_with_ok h
    obtain ⟨hsub, hdid, hjti, hexp', hrefresh⟩ := read_claims_ok hread
    refine ⟨d, hd, hsub, hdid, hjti, hexp', hrefresh, ?_⟩
    rw [hexp', JwtClaim.any_value, decide_eq_false_iff_not] at hexp
    exact not_le.1 hexp
  · cases hother.symm.trans h
  · cases hinvalid.symm.trans h

theorem reads_of_verify {token : String} {require_refresh : Bool} {c : TokenClaims}
    (h : verify cfg lib now later token require_refresh = .ok c) :
    lib.reads token = some c.toJwtClaims := by
  obtain ⟨d, hd, hsub, hdid, hjti, -⟩ := verify_ok h
  simp only [JwtLib.reads, hd, hsub, hdid, hjti, Option.bind_eq_bind, Option.bind_some,
    Option.pure_def]

theorem read_claims_error {d : DecodedJwt} {kid : String} {require_refresh : Bool}
    {e : ServiceError} (h : read_claims d kid require_refresh = .error (.service e)) :
    e.code = error.kAuthTokenInvalid := by
  unfold read_claims at h
  split at h
  · split at h
    · dsimp only at h
      split at h <;> cases h
      rfl
    · cases h
  · cases h
    rfl

theorem verify_with_error {key kid : String} {d : DecodedJwt} {require_refresh : Bool}
    {e : ServiceError}
    (h : verify_with lib now later key kid d require_refresh = .error (.service e)) :
    e.code = error.kAuthTokenInvalid ∨ e.code = error.kAuthTokenExpired := by
  unfold verify_with at h
  split at h
  · cases h
  · split at h
    · split at h <;> cases h
      · exact .inl rfl
      · exact .inr rfl
    · split at h
      · cases h
        exact .inl rfl
      · exact .inl (read_claims_error h)

/-- The codes with which a token is refused. -/
theorem verify_error {token : String} {require_refresh : Bool} {e : ServiceError}
    (h : verify cfg lib now later token require_refresh = .error (.service e)) :
    e.code = error.kAuthTokenInvalid ∨ e.code = error.kAuthTokenExpired := by
  obtain ⟨d, kid, key, hd, hkeyed⟩ | hother | ⟨message, hinvalid⟩ :=
    verify_cases cfg lib now later token require_refresh
  · rw [verify_of_keyed hd hkeyed] at h
    exact verify_with_error h
  · cases hother.symm.trans h
  · cases hinvalid.symm.trans h
    exact .inl rfl

end JwtCodec

end ChatNow
