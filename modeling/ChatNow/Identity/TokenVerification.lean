import ChatNow.Identity.Machine
import Mathlib.Data.Rat.Floor

/-!
# Which tokens are accepted

`JwtCodec::verify` against what its header promises. The library is jwt-cpp: how it checks a token
is `jwt_cpp`, with the message authentication code and the parser as parameters.

A token whose time is over is checked with a leeway of a minute, and only for its signature. But the
verifier looks at the dates as well, at a time of its own. So a genuine token is reported as expired
for one more minute and from then on as one with a wrong signature; and one whose time runs out
between the two readings of the clock is reported as invalid. (The dates are taken to be such that
the clock can represent them.)

## Main results

* `verify_classifies`: the tokens for which `verify` keeps its promise, and what becomes of a token
  that has been signed here.
-/

namespace ChatNow

namespace JwtClaim

variable {α : Type}

/-- The claim is there, and it can be read. -/
def Readable : JwtClaim α → Prop
  | value _ => True
  | _ => False

/-- What a verifier asks of a claim that may be absent. -/
def Passes (p : α → Prop) : JwtClaim α → Prop
  | absent => True
  | malformed => False
  | value a => p a

instance (p : α → Prop) [DecidablePred p] (c : JwtClaim α) : Decidable (c.Passes p) :=
  match c with
  | absent => .isTrue trivial
  | malformed => .isFalse id
  | value a => inferInstanceAs (Decidable (p a))

theorem readable_iff {c : JwtClaim α} : c.Readable ↔ ∃ a, c = value a := by
  cases c with
  | absent => exact iff_of_false id fun ⟨_, h⟩ ↦ by cases h
  | malformed => exact iff_of_false id fun ⟨_, h⟩ ↦ by cases h
  | value a => exact iff_of_true trivial ⟨a, rfl⟩

theorem any_eq_true {p : α → Bool} {c : JwtClaim α} :
    c.any p = true ↔ ∃ a, c = value a ∧ p a = true := by
  cases c with
  | absent => exact iff_of_false Bool.false_ne_true fun ⟨_, h, _⟩ ↦ by cases h
  | malformed => exact iff_of_false Bool.false_ne_true fun ⟨_, h, _⟩ ↦ by cases h
  | value a => exact ⟨fun h ↦ ⟨a, rfl, h⟩, fun ⟨_, h, hp⟩ ↦ by cases h; exact hp⟩

end JwtClaim

namespace JwtCodec

/-! ### The library -/

/-- What the verifier asks of the dates of a token. -/
def DatesPass (leeway : ℤ) (now : ℚ) (d : DecodedClaims) : Prop :=
  d.expires_at.Passes (fun exp : ℤ ↦ now ≤ exp + leeway) ∧
    d.issued_at.Passes (fun iat : ℤ ↦ iat - leeway ≤ now) ∧
    d.not_before.Passes fun nbf : ℤ ↦ nbf - leeway ≤ now

instance (leeway : ℤ) (now : ℚ) (d : DecodedClaims) : Decidable (DatesPass leeway now d) :=
  inferInstanceAs (Decidable (_ ∧ _ ∧ _))

/-- The library. `mac` is the code of HS256. The checks of the dates are in a hash table: the text
of the exception, which depends on the one that is made first, is `what`. -/
def jwt_cpp (mac : String → String → String) (decode : String → Option DecodedJwt)
    (what : DecodedJwt → String) : JwtLib where
  decode := decode
  verify key leeway now d :=
    if d.algorithm = .value "HS256" ∧ d.signature = mac key d.data ∧
      DatesPass leeway now d.toDecodedClaims then .ok ()
    else .error (what d)

/-- The text is what the library makes of the claims and the key when it signs. -/
def IsSigned (mac : String → String → String) (decode : String → Option DecodedJwt) (key : String)
    (c : TokenClaims) (text : String) : Prop :=
  ∃ data, decode text = some { decoded c with data := data, signature := mac key data }

/-! ### The promise -/

variable (cfg : JwtConfig) (mac : String → String → String) (now later : ℚ)

/-- The token is signed with the key of its key id. -/
structure Signed (d : DecodedJwt) (kid key : String) : Prop extends
    Keyed cfg d.toDecodedClaims kid key where
  signature : d.signature = mac key d.data

/-- The claims are those of the token. -/
structure Carries (d : DecodedClaims) (c : TokenClaims) : Prop where
  kid : d.key_id = .value c.kid
  sub : d.sub = some c.sub
  did : d.did = some c.did
  jti : d.jti = some c.jti
  issued_at : d.issued_at = .value c.iat_sec
  expires_at : d.expires_at = .value c.exp_sec
  typ : (d.typ == some "refresh") = c.is_refresh

/-- The token is signed correctly, and its time is over. -/
def Expired (d : DecodedJwt) : Prop :=
  (∃ kid key, Signed cfg mac d kid key) ∧ ∃ exp : ℤ, d.expires_at = .value exp ∧ exp ≤ now

variable (decode : String → Option DecodedJwt) (what : DecodedJwt → String) (token : String)
  (require_refresh : Bool)

/-- What the header says of `verify`, for one token and the time at which it is asked, which is that
of the first reading. -/
structure Classified : Prop where
  accepted : ∀ c, verify cfg (jwt_cpp mac decode what) now later token require_refresh = .ok c ↔
    ∃ d key, decode token = some d ∧ Signed cfg mac d c.kid key ∧
      Carries d.toDecodedClaims c ∧ now < c.exp_sec ∧ c.is_refresh = require_refresh
  expired : ∀ d, decode token = some d → Expired cfg mac now d →
    ∃ message, verify cfg (jwt_cpp mac decode what) now later token require_refresh =
      .error (.service ⟨error.kAuthTokenExpired, message⟩)
  refused : ∀ e, verify cfg (jwt_cpp mac decode what) now later token require_refresh = .error e →
    (∀ d, decode token = some d → ¬ Expired cfg mac now d) →
    ∃ message, e = .service ⟨error.kAuthTokenInvalid, message⟩

/-! ### The condition -/

/-- The three texts are there. -/
def Complete (d : DecodedClaims) : Prop := d.sub.isSome ∧ d.did.isSome ∧ d.jti.isSome

/-- The two dates are there. -/
def Dated (d : DecodedClaims) : Prop := d.issued_at.Readable ∧ d.expires_at.Readable

/-- What a token has to be like for `verify` to keep its promise. -/
structure Orderly (d : DecodedJwt) : Prop where
  algorithm : d.algorithm.Readable
  key_id : d.algorithm = .value "HS256" → d.key_id ≠ .malformed
  expires_at : ∀ kid key, Keyed cfg d.toDecodedClaims kid key → d.expires_at ≠ .malformed
  /-- It has been over for less than a minute. -/
  late : Expired cfg mac now d → DatesPass 60 later d.toDecodedClaims
  /-- A token that passes has its dates. -/
  dated : ∀ kid key, Signed cfg mac d kid key → ¬ Expired cfg mac now d →
    DatesPass 0 later d.toDecodedClaims → Complete d.toDecodedClaims → Dated d.toDecodedClaims
  /-- A token that is to be accepted passes. -/
  passes : ∀ kid key, Signed cfg mac d kid key → ¬ Expired cfg mac now d →
    Complete d.toDecodedClaims → Dated d.toDecodedClaims →
    (d.typ == some "refresh") = require_refresh → DatesPass 0 later d.toDecodedClaims

/-! ### What `verify` answers -/

variable {cfg mac now later decode what token require_refresh} {d : DecodedJwt} {kid key : String}
  {c : TokenClaims}

theorem Keyed.unique {d : DecodedClaims} {kid' key' : String} (h : Keyed cfg d kid key)
    (h' : Keyed cfg d kid' key') : kid' = kid ∧ key' = key := by
  obtain rfl := JwtClaim.value.inj (h'.key_id.symm.trans h.key_id)
  exact ⟨rfl, Option.some.inj (h'.known.symm.trans h.known)⟩

theorem jwt_cpp_ok {leeway : ℤ} (hs : Signed cfg mac d kid key) :
    (jwt_cpp mac decode what).verify key leeway now d = .ok () ↔
      DatesPass leeway now d.toDecodedClaims := by
  unfold jwt_cpp
  dsimp only
  split
  · next h => exact iff_of_true rfl h.2.2
  · next h => exact iff_of_false (by simp) fun hd ↦ h ⟨hs.algorithm, hs.signature, hd⟩

theorem signed_of_jwt_cpp_ok {leeway : ℤ} (hk : Keyed cfg d.toDecodedClaims kid key)
    (h : (jwt_cpp mac decode what).verify key leeway now d = .ok ()) :
    Signed cfg mac d kid key := by
  unfold jwt_cpp at h
  dsimp only at h
  split at h
  · next hd => exact ⟨hk, hd.2.1⟩
  · cases h

/-- An algorithm that is no text throws an exception of the library. -/
theorem verify_of_not_readable (hd : decode token = some d) (h : ¬ d.algorithm.Readable) :
    verify cfg (jwt_cpp mac decode what) now later token require_refresh = .error .other := by
  unfold verify
  simp only [jwt_cpp, hd]
  cases halg : d.algorithm with
  | absent => rfl
  | malformed => rfl
  | value algorithm => exact absurd (JwtClaim.readable_iff.2 ⟨_, halg⟩) h

/-- So does a key id that is no text. -/
theorem verify_of_malformed_key_id (hd : decode token = some d)
    (halg : d.algorithm = .value "HS256") (h : d.key_id = .malformed) :
    verify cfg (jwt_cpp mac decode what) now later token require_refresh = .error .other := by
  unfold verify
  simp only [jwt_cpp, hd, halg, h]
  rfl

/-- Without a key the token is invalid. -/
theorem verify_of_not_keyed (hd : decode token = some d) (halg : d.algorithm.Readable)
    (hkid : d.algorithm = .value "HS256" → d.key_id ≠ .malformed)
    (h : ¬ ∃ kid key, Keyed cfg d.toDecodedClaims kid key) :
    ∃ message, verify cfg (jwt_cpp mac decode what) now later token require_refresh =
      .error (.service ⟨error.kAuthTokenInvalid, message⟩) := by
  obtain ⟨algorithm, halg⟩ := JwtClaim.readable_iff.1 halg
  unfold verify
  simp only [jwt_cpp, hd, halg]
  by_cases hs256 : algorithm = "HS256"
  · subst hs256
    cases hkey_id : d.key_id with
    | absent => exact ⟨_, rfl⟩
    | malformed => exact absurd hkey_id (hkid halg)
    | value kid =>
      cases hknown : cfg.keys.lookup kid with
      | none =>
        refine ⟨"unknown kid: " ++ kid, ?_⟩
        simp only [hknown]
        rfl
      | some key => exact absurd ⟨kid, key, halg, hkey_id, hknown⟩ h
  · exact ⟨_, if_pos hs256⟩

/-- With a wrong signature, too. -/
theorem verify_of_not_signed (hd : decode token = some d)
    (hk : Keyed cfg d.toDecodedClaims kid key) (hexp : d.expires_at ≠ .malformed)
    (h : ¬ Signed cfg mac d kid key) :
    ∃ message, verify cfg (jwt_cpp mac decode what) now later token require_refresh =
      .error (.service ⟨error.kAuthTokenInvalid, message⟩) := by
  have hfails : ∀ leeway, ∃ text,
      (jwt_cpp mac decode what).verify key leeway later d = .error text := by
    intro leeway
    cases hv : (jwt_cpp mac decode what).verify key leeway later d with
    | error text => exact ⟨text, rfl⟩
    | ok => exact absurd (signed_of_jwt_cpp_ok hk hv) h
  obtain ⟨text₆₀, h₆₀⟩ := hfails 60
  obtain ⟨text₀, h₀⟩ := hfails 0
  rw [verify_of_keyed hd hk, verify_with, if_neg hexp, h₆₀, h₀]
  dsimp only
  split
  · exact ⟨_, rfl⟩
  · exact ⟨_, rfl⟩

/-- A token whose time is over, and that is signed correctly. -/
theorem verify_of_expired (hd : decode token = some d) (h : Expired cfg mac now d) :
    verify cfg (jwt_cpp mac decode what) now later token require_refresh =
      if DatesPass 60 later d.toDecodedClaims then
        .error (.service ⟨error.kAuthTokenExpired, "token expired"⟩)
      else .error (.service ⟨error.kAuthTokenInvalid, "signature invalid"⟩) := by
  obtain ⟨⟨kid, key, hs⟩, exp, hexp, hle⟩ := h
  have hany : d.expires_at.any (fun exp : ℤ ↦ (exp : ℚ) ≤ now) = true :=
    JwtClaim.any_eq_true.2 ⟨exp, hexp, decide_eq_true hle⟩
  have hreadable : d.expires_at ≠ .malformed := by rw [hexp]; exact nofun
  rw [verify_of_keyed hd hs.toKeyed, verify_with, if_neg hreadable, if_pos hany]
  split
  · next text hv =>
    rw [if_neg fun hp ↦ ?_]
    rw [(jwt_cpp_ok hs).2 hp] at hv
    cases hv
  · next hv => rw [if_pos ((jwt_cpp_ok hs).1 hv)]

theorem expires_at_of_not_expired (hs : Signed cfg mac d kid key) (h : ¬ Expired cfg mac now d) :
    d.expires_at.any (fun exp : ℤ ↦ (exp : ℚ) ≤ now) = false := by
  refine Bool.eq_false_iff.2 fun hany ↦ h ⟨⟨kid, key, hs⟩, ?_⟩
  obtain ⟨exp, hexp, hle⟩ := JwtClaim.any_eq_true.1 hany
  exact ⟨exp, hexp, of_decide_eq_true hle⟩

/-- A token whose time is not over, and that is signed correctly. -/
theorem verify_in_time (hd : decode token = some d) (hs : Signed cfg mac d kid key)
    (hreadable : d.expires_at ≠ .malformed) (h : ¬ Expired cfg mac now d) :
    verify cfg (jwt_cpp mac decode what) now later token require_refresh =
      if DatesPass 0 later d.toDecodedClaims then read_claims d kid require_refresh
      else .error (.service ⟨error.kAuthTokenInvalid, "verify failed: " ++ what d⟩) := by
  rw [verify_of_keyed hd hs.toKeyed, verify_with, if_neg hreadable,
    expires_at_of_not_expired hs h, if_neg Bool.false_ne_true]
  split
  · next text hv =>
    have hnot : ¬ DatesPass 0 later d.toDecodedClaims := by
      intro hp
      rw [(jwt_cpp_ok hs).2 hp] at hv
      cases hv
    have htext : text = what d := by
      unfold jwt_cpp at hv
      dsimp only at hv
      split at hv
      · cases hv
      · exact (Except.error.inj hv).symm
    rw [if_neg hnot, htext]
  · next hv => rw [if_pos ((jwt_cpp_ok hs).1 hv)]

/-! ### The claims that are read -/

/-- The claims are read exactly when they are those of the token, and the type is the one that is
asked for. -/
theorem read_claims_ok_iff (hkid : d.key_id = .value kid) :
    read_claims d kid require_refresh = .ok c ↔
      Carries d.toDecodedClaims c ∧ c.is_refresh = require_refresh := by
  constructor
  · intro h
    unfold read_claims at h
    split at h
    · next sub did jti hsub hdid hjti =>
      split at h
      · next iat exp hiat hexp =>
        dsimp only at h
        split at h
        · cases h
        · next heq =>
          obtain rfl := Except.ok.inj h
          exact ⟨⟨hkid, hsub, hdid, hjti, hiat, hexp, rfl⟩, (not_not.1 heq).symm⟩
      · cases h
    · cases h
  · rintro ⟨h, hrefresh⟩
    have hkid' : kid = c.kid := JwtClaim.value.inj (hkid.symm.trans h.kid)
    have htyp := h.typ
    unfold read_claims
    simp only [h.sub, h.did, h.jti, h.issued_at, h.expires_at, htyp]
    rw [if_neg (by rw [hrefresh]; exact not_not.2 rfl), hkid']

theorem complete_iff {d : DecodedClaims} :
    Complete d ↔ ∃ sub did jti, d.sub = some sub ∧ d.did = some did ∧ d.jti = some jti := by
  simp only [Complete, Option.isSome_iff_exists]
  exact ⟨fun ⟨⟨sub, hsub⟩, ⟨did, hdid⟩, jti, hjti⟩ ↦ ⟨sub, did, jti, hsub, hdid, hjti⟩,
    fun ⟨sub, did, jti, hsub, hdid, hjti⟩ ↦ ⟨⟨sub, hsub⟩, ⟨did, hdid⟩, jti, hjti⟩⟩

/-- A token with all claims has some that `verify` could give out. -/
theorem Complete.carries {d : DecodedClaims} (h : Complete d) (hdated : Dated d)
    (hkid : d.key_id = .value kid) :
    ∃ c : TokenClaims, c.kid = kid ∧ Carries d c := by
  obtain ⟨sub, did, jti, hsub, hdid, hjti⟩ := complete_iff.1 h
  obtain ⟨iat, hiat⟩ := JwtClaim.readable_iff.1 hdated.1
  obtain ⟨exp, hexp⟩ := JwtClaim.readable_iff.1 hdated.2
  exact ⟨⟨⟨sub, did, jti⟩, kid, iat, exp, d.typ == some "refresh"⟩, rfl, hkid, hsub, hdid, hjti,
    hiat, hexp, rfl⟩

theorem Carries.complete {d : DecodedClaims} (h : Carries d c) : Complete d :=
  complete_iff.2 ⟨_, _, _, h.sub, h.did, h.jti⟩

theorem Carries.dated {d : DecodedClaims} (h : Carries d c) : Dated d :=
  ⟨JwtClaim.readable_iff.2 ⟨_, h.issued_at⟩, JwtClaim.readable_iff.2 ⟨_, h.expires_at⟩⟩

/-- Without the dates there is an exception of the library. -/
theorem read_claims_of_not_dated (h : Complete d.toDecodedClaims)
    (hdated : ¬ Dated d.toDecodedClaims) :
    read_claims d kid require_refresh = .error .other := by
  obtain ⟨sub, did, jti, hsub, hdid, hjti⟩ := complete_iff.1 h
  unfold read_claims
  simp only [hsub, hdid, hjti]
  split
  · next iat exp hiat hexp =>
    exact absurd ⟨JwtClaim.readable_iff.2 ⟨_, hiat⟩, JwtClaim.readable_iff.2 ⟨_, hexp⟩⟩ hdated
  · rfl

/-- A refusal when the claims are read is one for an invalid token, unless a date is missing. -/
theorem read_claims_refused {e : JwtThrown} (h : read_claims d kid require_refresh = .error e)
    (hdated : Complete d.toDecodedClaims → Dated d.toDecodedClaims) :
    ∃ message, e = .service ⟨error.kAuthTokenInvalid, message⟩ := by
  cases e with
  | service e => exact ⟨e.message, by rw [← read_claims_error h]⟩
  | other =>
    unfold read_claims at h
    split at h
    · next sub did jti hsub hdid hjti =>
      obtain ⟨hiat, hexp⟩ := hdated (complete_iff.2 ⟨_, _, _, hsub, hdid, hjti⟩)
      obtain ⟨iat, hiat⟩ := JwtClaim.readable_iff.1 hiat
      obtain ⟨exp, hexp⟩ := JwtClaim.readable_iff.1 hexp
      simp only [hiat, hexp] at h
      split at h <;> cases h
    · cases h

/-! ### When the promise is kept -/

theorem Expired.not_carries (h : Expired cfg mac now d) (hlt : now < c.exp_sec) :
    ¬ Carries d.toDecodedClaims c := by
  intro hc
  obtain ⟨-, exp, hexp, hle⟩ := h
  obtain rfl := JwtClaim.value.inj (hexp.symm.trans hc.expires_at)
  exact absurd hlt (not_lt.2 hle)

/-- If the promise is kept, the token is as it has to be. -/
theorem orderly_of_classified
    (h : Classified cfg mac now later decode what token require_refresh)
    (hd : decode token = some d) :
    Orderly cfg mac now later require_refresh d := by
  have hother : (∀ kid key, Signed cfg mac d kid key → ¬ Expired cfg mac now d) →
      verify cfg (jwt_cpp mac decode what) now later token require_refresh ≠ .error .other := by
    intro hexp hthrown
    obtain ⟨message, hmessage⟩ := h.refused _ hthrown fun d' hd' hd'' ↦ by
      obtain rfl := Option.some.inj (hd.symm.trans hd')
      obtain ⟨kid, key, hs⟩ := hd''.1
      exact hexp kid key hs hd''
    cases hmessage
  refine ⟨?_, ?_, ?_, ?_, ?_, ?_⟩
  · by_contra hnot
    refine hother (fun kid key hs ↦ ?_) (verify_of_not_readable hd hnot)
    exact absurd (JwtClaim.readable_iff.2 ⟨_, hs.algorithm⟩) hnot
  · intro halg hkid
    refine hother (fun kid key hs ↦ ?_) (verify_of_malformed_key_id hd halg hkid)
    cases hs.key_id.symm.trans hkid
  · intro kid key hk hexp
    refine hother (fun kid key _ ⟨_, exp, hexp', _⟩ ↦ ?_) ?_
    · cases hexp'.symm.trans hexp
    · rw [verify_of_keyed hd hk, verify_with, if_pos hexp]
  · intro hexp
    by_contra hnot
    obtain ⟨message, hmessage⟩ := h.expired d hd hexp
    rw [verify_of_expired hd hexp, if_neg hnot] at hmessage
    cases hmessage
  · intro kid key hs hexp hpass hcomplete
    by_contra hnot
    have hreadable : d.expires_at ≠ .malformed := by
      intro hmal
      have hexp := hpass.1
      rw [hmal] at hexp
      exact hexp
    refine hother (fun _ _ _ ↦ hexp) ?_
    rw [verify_in_time hd hs hreadable hexp, if_pos hpass]
    exact read_claims_of_not_dated hcomplete hnot
  · intro kid key hs hexp hcomplete hdated htyp
    by_contra hnot
    obtain ⟨c, rfl, hc⟩ := hcomplete.carries hdated hs.key_id
    have hlt : now < c.exp_sec := by
      have hany := expires_at_of_not_expired hs hexp
      rw [hc.expires_at, JwtClaim.any_value, decide_eq_false_iff_not] at hany
      exact not_le.1 hany
    have hok := (h.accepted c).2 ⟨d, key, hd, hs, hc, hlt, hc.typ.symm.trans htyp⟩
    have hreadable : d.expires_at ≠ .malformed := by rw [hc.expires_at]; exact nofun
    rw [verify_in_time hd hs hreadable hexp, if_neg hnot] at hok
    cases hok

/-- If the token is as it has to be, the promise is kept. -/
theorem classified_of_orderly (hd : decode token = some d)
    (h : Orderly cfg mac now later require_refresh d) :
    Classified cfg mac now later decode what token require_refresh := by
  refine ⟨fun c ↦ ⟨fun hok ↦ ?_, ?_⟩, ?_, ?_⟩
  · obtain ⟨d', kid, key, hd', hk⟩ | hthrown | ⟨message, hinvalid⟩ :=
      verify_cases cfg (jwt_cpp mac decode what) now later token require_refresh
    · obtain rfl := Option.some.inj (hd.symm.trans hd')
      have hread := hok
      rw [verify_of_keyed hd' hk] at hread
      obtain ⟨-, hv, hread⟩ := verify_with_ok hread
      have hs := signed_of_jwt_cpp_ok hk hv
      obtain ⟨hc, hrefresh⟩ := (read_claims_ok_iff hk.key_id).1 hread
      obtain rfl := JwtClaim.value.inj (hk.key_id.symm.trans hc.kid)
      obtain ⟨-, -, -, -, -, -, -, hlt⟩ := verify_ok hok
      exact ⟨d, key, hd, hs, hc, hlt, hrefresh⟩
    · cases hthrown.symm.trans hok
    · cases hinvalid.symm.trans hok
  · rintro ⟨d', key, hd', hs, hc, hlt, hrefresh⟩
    obtain rfl := Option.some.inj (hd.symm.trans hd')
    have hexp : ¬ Expired cfg mac now d := fun hexp ↦ hexp.not_carries hlt hc
    have hpass := h.passes _ _ hs hexp hc.complete hc.dated (hc.typ.trans hrefresh)
    rw [verify_in_time hd hs (h.expires_at _ _ hs.toKeyed) hexp, if_pos hpass]
    exact (read_claims_ok_iff hs.key_id).2 ⟨hc, hrefresh⟩
  · intro d' hd' hexp
    obtain rfl := Option.some.inj (hd.symm.trans hd')
    exact ⟨_, (verify_of_expired hd hexp).trans (if_pos (h.late hexp))⟩
  · intro e he hexp
    have hexp := hexp d hd
    by_cases hsigned : ∃ kid key, Signed cfg mac d kid key
    · obtain ⟨kid, key, hs⟩ := hsigned
      rw [verify_in_time hd hs (h.expires_at _ _ hs.toKeyed) hexp] at he
      split at he
      · next hpass => exact read_claims_refused he (h.dated _ _ hs hexp hpass)
      · exact ⟨_, (Except.error.inj he).symm⟩
    · obtain ⟨message, hinvalid⟩ :
          ∃ message, verify cfg (jwt_cpp mac decode what) now later token require_refresh =
            .error (.service ⟨error.kAuthTokenInvalid, message⟩) := by
        by_cases hkeyed : ∃ kid key, Keyed cfg d.toDecodedClaims kid key
        · obtain ⟨kid, key, hk⟩ := hkeyed
          exact verify_of_not_signed hd hk (h.expires_at _ _ hk) fun hs ↦ hsigned ⟨kid, key, hs⟩
        · exact verify_of_not_keyed hd h.algorithm h.key_id hkeyed
      exact ⟨message, Except.error.inj (he.symm.trans hinvalid)⟩

theorem classified_of_none (hd : decode token = none) :
    Classified cfg mac now later decode what token require_refresh := by
  have hinvalid : verify cfg (jwt_cpp mac decode what) now later token require_refresh =
      .error (.service ⟨error.kAuthTokenInvalid, "token decode failed"⟩) := by
    unfold verify
    simp only [jwt_cpp, hd]
  refine ⟨fun c ↦ ⟨fun hok ↦ ?_, ?_⟩, ?_, ?_⟩
  · cases hinvalid.symm.trans hok
  · rintro ⟨d, -, hd', -⟩
    cases hd.symm.trans hd'
  · intro d hd'
    cases hd.symm.trans hd'
  · intro e he _
    exact ⟨_, Except.error.inj (he.symm.trans hinvalid)⟩

theorem classified_iff :
    Classified cfg mac now later decode what token require_refresh ↔
      ∀ d, decode token = some d → Orderly cfg mac now later require_refresh d := by
  constructor
  · exact fun h d hd ↦ orderly_of_classified h hd
  · intro h
    cases hd : decode token with
    | none => exact classified_of_none hd
    | some d => exact classified_of_orderly hd (h d hd)

/-! ### Tokens that have been signed here -/

section Genuine

variable {cfg₀ : JwtConfig} {is_refresh : Bool} {t : ℚ} {user_id device_id jti : String}
  (hkey : cfg.keys.lookup cfg₀.current_kid = some cfg₀.current_key)
  (hd : d.toDecodedClaims =
    decoded (sign_internal cfg₀ ⌊t⌋ user_id device_id jti is_refresh))
  (hsig : d.signature = mac cfg₀.current_key d.data)

include hkey hd hsig

theorem signed_of_genuine : Signed cfg mac d cfg₀.current_kid cfg₀.current_key := by
  refine ⟨⟨?_, ?_, hkey⟩, hsig⟩
  · rw [hd]
    rfl
  · rw [hd]
    rfl

theorem genuine_expired_iff :
    Expired cfg mac now d ↔
      (sign_internal cfg₀ ⌊t⌋ user_id device_id jti is_refresh).exp_sec ≤ now := by
  have hexp : d.expires_at = .value
      (sign_internal cfg₀ ⌊t⌋ user_id device_id jti is_refresh).exp_sec := by rw [hd]; rfl
  constructor
  · rintro ⟨-, exp, hexp', hle⟩
    obtain rfl := JwtClaim.value.inj (hexp.symm.trans hexp')
    exact hle
  · exact fun hle ↦ ⟨⟨_, _, signed_of_genuine hkey hd hsig⟩, _, hexp, hle⟩

omit hd hsig in
theorem IsSigned.expired
    (h : IsSigned mac decode cfg₀.current_key
      (sign_internal cfg₀ ⌊t⌋ user_id device_id jti is_refresh) token)
    (hle : (sign_internal cfg₀ ⌊t⌋ user_id device_id jti is_refresh).exp_sec ≤ now) :
    ∃ d, decode token = some d ∧ Expired cfg mac now d := by
  obtain ⟨data, hdecode⟩ := h
  exact ⟨_, hdecode, (genuine_expired_iff hkey rfl rfl).2 hle⟩

omit hkey hsig in
/-- It has not been signed later than it is shown. -/
theorem genuine_dates_pass_iff {leeway : ℤ} (hleeway : 0 ≤ leeway) (ht : t ≤ now) :
    DatesPass leeway now d.toDecodedClaims ↔
      now ≤ (sign_internal cfg₀ ⌊t⌋ user_id device_id jti is_refresh).exp_sec + leeway := by
  rw [hd]
  refine and_iff_left ⟨?_, trivial⟩
  show ((⌊t⌋ : ℤ) : ℚ) - (leeway : ℤ) ≤ now
  have hfloor : ((⌊t⌋ : ℤ) : ℚ) ≤ t := Int.floor_le t
  have hleeway : (0 : ℚ) ≤ (leeway : ℤ) := Int.cast_nonneg hleeway
  linarith

theorem verify_genuine_in_time (hdecode : decode token = some d) (ht : t ≤ later)
    (hlt : now < (sign_internal cfg₀ ⌊t⌋ user_id device_id jti is_refresh).exp_sec)
    (hle : later ≤ (sign_internal cfg₀ ⌊t⌋ user_id device_id jti is_refresh).exp_sec) :
    verify cfg (jwt_cpp mac decode what) now later token require_refresh =
      read_claims d cfg₀.current_kid require_refresh := by
  have hs := signed_of_genuine hkey hd hsig
  have hexp : ¬ Expired cfg mac now d := fun h ↦
    not_le.2 hlt ((genuine_expired_iff hkey hd hsig).1 h)
  have hreadable : d.expires_at ≠ .malformed := by rw [hd]; exact nofun
  rw [verify_in_time hdecode hs hreadable hexp, if_pos]
  rw [genuine_dates_pass_iff hd le_rfl ht, Int.cast_zero, add_zero]
  exact hle

/-- Its time runs out between the two readings. -/
theorem verify_genuine_between (hdecode : decode token = some d) (ht : t ≤ later)
    (hlt : now < (sign_internal cfg₀ ⌊t⌋ user_id device_id jti is_refresh).exp_sec)
    (hover : (sign_internal cfg₀ ⌊t⌋ user_id device_id jti is_refresh).exp_sec < later) :
    verify cfg (jwt_cpp mac decode what) now later token require_refresh =
      .error (.service ⟨error.kAuthTokenInvalid, "verify failed: " ++ what d⟩) := by
  have hs := signed_of_genuine hkey hd hsig
  have hexp : ¬ Expired cfg mac now d := fun h ↦
    not_le.2 hlt ((genuine_expired_iff hkey hd hsig).1 h)
  have hreadable : d.expires_at ≠ .malformed := by rw [hd]; exact nofun
  rw [verify_in_time hdecode hs hreadable hexp, if_neg]
  rw [genuine_dates_pass_iff hd le_rfl ht, Int.cast_zero, add_zero]
  exact not_le.2 hover

omit hkey hsig in
theorem genuine_carries :
    Carries d.toDecodedClaims (sign_internal cfg₀ ⌊t⌋ user_id device_id jti is_refresh) := by
  rw [hd]
  refine ⟨rfl, rfl, rfl, rfl, rfl, rfl, ?_⟩
  cases is_refresh
  · rfl
  · exact beq_self_eq_true _

end Genuine

/-- **Which tokens are accepted, and how the others are refused.** The promise is kept for a text
exactly when, if the library can parse it, the token is `Orderly`. A token that has been signed by
an instance whose current key is still known is accepted, with the claims that have been signed, as
long as it lasts at both readings of the clock, and only where its type is asked for; when its time
runs out between them it is invalid; when it is over at the first it is reported as expired for a
minute, and no longer. -/
theorem verify_classifies (mac : String → String → String) (decode : String → Option DecodedJwt)
    (what : DecodedJwt → String) (cfg : JwtConfig) (now later : ℚ) (token : String) :
    (∀ require_refresh, Classified cfg mac now later decode what token require_refresh ↔
      ∀ d, decode token = some d → Orderly cfg mac now later require_refresh d) ∧
    ∀ (cfg₀ : JwtConfig) (t : ℚ) (user_id device_id jti : String) (is_refresh : Bool),
      cfg.keys.lookup cfg₀.current_kid = some cfg₀.current_key →
      IsSigned mac decode cfg₀.current_key
        (sign_internal cfg₀ ⌊t⌋ user_id device_id jti is_refresh) token → t ≤ later →
      (now < (sign_internal cfg₀ ⌊t⌋ user_id device_id jti is_refresh).exp_sec →
        later ≤ (sign_internal cfg₀ ⌊t⌋ user_id device_id jti is_refresh).exp_sec →
        verify cfg (jwt_cpp mac decode what) now later token is_refresh =
          .ok (sign_internal cfg₀ ⌊t⌋ user_id device_id jti is_refresh) ∧
        ∃ message, verify cfg (jwt_cpp mac decode what) now later token (!is_refresh) =
          .error (.service ⟨error.kAuthTokenInvalid, message⟩)) ∧
      (now < (sign_internal cfg₀ ⌊t⌋ user_id device_id jti is_refresh).exp_sec →
        (sign_internal cfg₀ ⌊t⌋ user_id device_id jti is_refresh).exp_sec < later →
        ∀ require_refresh, ∃ message,
          verify cfg (jwt_cpp mac decode what) now later token require_refresh =
            .error (.service ⟨error.kAuthTokenInvalid, message⟩)) ∧
      ((sign_internal cfg₀ ⌊t⌋ user_id device_id jti is_refresh).exp_sec ≤ now →
        ∀ require_refresh,
          (∃ message, verify cfg (jwt_cpp mac decode what) now later token require_refresh =
            .error (.service ⟨error.kAuthTokenExpired, message⟩)) ↔
          later ≤ (sign_internal cfg₀ ⌊t⌋ user_id device_id jti is_refresh).exp_sec + 60) := by
  refine ⟨fun require_refresh ↦ classified_iff, ?_⟩
  rintro cfg₀ t user_id device_id jti is_refresh hkey ⟨data, hdecode⟩ ht
  refine ⟨fun hlt hle ↦ ⟨?_, ?_⟩, fun hlt hover require_refresh ↦ ?_, fun hle require_refresh ↦ ?_⟩
  · rw [verify_genuine_in_time hkey rfl rfl hdecode ht hlt hle]
    exact (read_claims_ok_iff rfl).2 ⟨genuine_carries rfl, rfl⟩
  · rw [verify_genuine_in_time hkey rfl rfl hdecode ht hlt hle]
    cases is_refresh
    · exact ⟨_, rfl⟩
    · exact ⟨_, rfl⟩
  · exact ⟨_, verify_genuine_between hkey rfl rfl hdecode ht hlt hover⟩
  · set d : DecodedJwt :=
      { decoded (sign_internal cfg₀ ⌊t⌋ user_id device_id jti is_refresh) with
        data := data
        signature := mac cfg₀.current_key data }
    have hpass : DatesPass 60 later d.toDecodedClaims ↔
        later ≤ (sign_internal cfg₀ ⌊t⌋ user_id device_id jti is_refresh).exp_sec + (60 : ℤ) :=
      genuine_dates_pass_iff rfl (by decide) ht
    rw [Int.cast_ofNat] at hpass
    rw [verify_of_expired hdecode ((genuine_expired_iff hkey rfl rfl).2 hle), ← hpass]
    split
    · next h => exact iff_of_true ⟨_, rfl⟩ h
    · next h => exact iff_of_false (fun ⟨_, he⟩ ↦ by cases he) h

/-- The first two parts of the text of a token. -/
def signed_part (text : String) : String := String.ofList (text.toList.take (text.length - 44))

/-- The third part. -/
def signature_part (text : String) : String := String.ofList (text.toList.drop (text.length - 43))

/-- The code of the tokens of alice's phone, with their key. -/
def phoneMac (key data : String) : String :=
  if key = phoneConfig.current_key then
    ((phoneTokens.map (·.2)).find? fun text ↦ signed_part text = data).elim "" signature_part
  else ""

theorem find?_cons_self {α β : Type} [DecidableEq β] (f : α → β) (a : α) (l : List α) :
    ((a :: l).find? fun b ↦ decide (f b = f a)) = some a :=
  List.find?_cons_of_pos (decide_eq_true rfl)

theorem phoneLib_decode (text : String) :
    phoneLib.decode text = (phoneTokens.find? (·.2 = text)).map fun x ↦
      { decoded x.1 with data := signed_part text, signature := signature_part text } :=
  rfl

/-- Her access token. -/
theorem phoneToken_isSigned :
    IsSigned phoneMac phoneLib.decode phoneConfig.current_key
      (sign_internal phoneConfig ⌊(0 : ℚ)⌋ "alice" "phone" "0a0a0a0a0a0a0a0a0a0a0a0a0a0a0a0a" false)
      (phoneToken 0) := by
  rw [Int.floor_zero]
  set c := sign_internal phoneConfig 0 "alice" "phone" "0a0a0a0a0a0a0a0a0a0a0a0a0a0a0a0a" false
  have htokens : phoneTokens = (c, phoneToken 0) :: phoneTokens.tail := rfl
  have hmac : phoneMac phoneConfig.current_key (signed_part (phoneToken 0)) =
      signature_part (phoneToken 0) := by
    rw [phoneMac, if_pos rfl, htokens, List.map_cons, find?_cons_self signed_part, Option.elim_some]
  have hfind : phoneTokens.find? (fun x ↦ x.2 = (c, phoneToken 0).2) = some (c, phoneToken 0) := by
    rw [htokens, find?_cons_self Prod.snd]
  dsimp only at hfind
  refine ⟨signed_part (phoneToken 0), ?_⟩
  rw [hmac, phoneLib_decode, hfind, Option.map_some]

/-- It is valid for two hours. -/
theorem verify_classifies_phone :
    verify phoneConfig (jwt_cpp phoneMac phoneLib.decode fun _ ↦ "") 7199 7200 (phoneToken 0)
        false =
      .ok (sign_internal phoneConfig ⌊(0 : ℚ)⌋ "alice" "phone" "0a0a0a0a0a0a0a0a0a0a0a0a0a0a0a0a"
        false) := by
  refine (((verify_classifies phoneMac phoneLib.decode (fun _ ↦ "") phoneConfig 7199 7200
    (phoneToken 0)).2 phoneConfig 0 "alice" "phone" "0a0a0a0a0a0a0a0a0a0a0a0a0a0a0a0a" false rfl
    phoneToken_isSigned (by norm_num)).1 ?_ ?_).1
  · decide +kernel
  · decide +kernel

/-- A minute and a second after its end it is reported as one with a wrong signature. -/
theorem expired_reported_invalid :
    ¬ Classified phoneConfig phoneMac 7261 7261 phoneLib.decode (fun _ ↦ "") (phoneToken 0)
      false := by
  intro h
  obtain ⟨d, hd, hexp⟩ := phoneToken_isSigned.expired phoneConfig.current_key_mem
    (by decide +kernel : _ ≤ (7261 : ℚ))
  obtain ⟨message, hmessage⟩ := h.expired d hd hexp
  obtain ⟨data, hdecode⟩ := phoneToken_isSigned
  have hclaims := congrArg (·.toDecodedClaims) (Option.some.inj (hd.symm.trans hdecode))
  have hpass : ¬ DatesPass 60 7261 d.toDecodedClaims := by
    rw [genuine_dates_pass_iff hclaims (by decide) (by decide)]
    decide +kernel
  rw [verify_of_expired hd hexp, if_neg hpass] at hmessage
  cases hmessage

end JwtCodec

end ChatNow
