import ChatNow.Identity.TokenContract
import ChatNow.Lib.Expiring
import ChatNow.Lib.Pool
import ChatNow.Lib.Table

/-!
# The identity service at work

Any number of calls of `Login`, `Logout` and `RefreshToken` as threads over the keys of Redis
(`AuthState`), with a clock that an event moves forward.

The token library is a parameter. What it accepts has been signed here, since nobody else has a key:
`AuthState.tokens` has the claims of every token that has been issued, and a text that the codec
accepts for other claims cannot be presented. A new token has an id that no other has, and a text
that the library parses as what has been signed.

A command of Redis may throw, and may have had its effect all the same (`AuthChoice.acts`). A crash
takes a thread away where it stands. The state also keeps what the threads have found and done, by
their position.
-/

namespace ChatNow

open Prog AuthOp

/-- What identifies a token. -/
abbrev TokenClaims.token_id (c : TokenClaims) : String := c.jti

/-- The text of the refresh key of a device. -/
def rt_key (user_id device_id : String) : String := "im:jwt:rt:" ++ user_id ++ ":" ++ device_id

/-- The refresh key of the device that a token is for. -/
def TokenClaims.rt_key (c : TokenClaims) : String := ChatNow.rt_key c.sub c.did

namespace JwtCodec

variable (cfg : JwtConfig) (now : ℤ)

/-- What `sign_internal` claims. -/
def sign_internal (user_id device_id jti : String) (is_refresh : Bool) : TokenClaims where
  sub := user_id
  did := device_id
  jti := jti
  kid := cfg.current_kid
  iat_sec := now
  exp_sec := now + if is_refresh then cfg.refresh_ttl_sec else cfg.access_ttl_sec
  is_refresh := is_refresh

/-- What the library makes of a signed token. -/
def decoded (c : TokenClaims) : DecodedClaims where
  algorithm := .value "HS256"
  key_id := .value c.kid
  issued_at := .value c.iat_sec
  expires_at := .value c.exp_sec
  sub := some c.sub
  did := some c.did
  jti := some c.jti
  typ := if c.is_refresh then some "refresh" else none

end JwtCodec

/-! ### The state -/

/-- The keys of Redis, and what the threads have done. -/
structure AuthState where
  now : ℤ := 0
  /-- The tokens that have been issued. -/
  tokens : Table TokenClaims.token_id := .empty
  /-- The blacklist. -/
  revoked : Expiring String Unit := .empty
  /-- The refresh keys. -/
  active : Expiring String String := .empty
  /-- The marks of the tokens that have been exchanged. -/
  chain : Expiring String Unit := .empty
  /-- The requests, by thread. -/
  requests : List AuthReq := []
  answers : List (ℕ × Except ServiceError AuthRsp) := []
  /-- The threads whose token the codec has accepted. -/
  accepted : List ℕ := []
  /-- The threads that have not found their token on the blacklist, and when. -/
  unmarked : List (ℕ × ℤ) := []
  /-- The tokens that have been put under a refresh key. -/
  put : List String := []
  /-- The threads that have found a refresh key without a token on logging out, or have deleted it.
  -/
  left : List (ℕ × String) := []

/-- What the environment decides at a call. -/
structure AuthChoice where
  /-- The command throws. -/
  fault : Bool := false
  /-- Its effect takes place all the same. -/
  late : Bool := false
  /-- The id and the text of a new token. -/
  jti : String := ""
  text : String := ""
  /-- Who logs in. -/
  user : Option (String × String) := none

/-- The effect of the command takes place. -/
def AuthChoice.acts (c : AuthChoice) : Bool := !c.fault || c.late

/-- What a command answers. -/
def AuthChoice.reply {α : Type} (c : AuthChoice) (a : α) : Reply α :=
  if c.fault then .thrown else .ok a

section Answered

variable {c : AuthChoice} (h : c.fault = false)

include h

theorem AuthChoice.acts_of_answered : c.acts = true := by
  rw [acts, h]
  rfl

theorem AuthChoice.reply_of_answered {α : Type} (a : α) : c.reply a = .ok a := by
  rw [reply, h]
  rfl

end Answered

namespace AuthState

variable (cfg : JwtConfig) (lib : JwtLib) (s : AuthState)

/-- Thread `i` is a `Logout`. -/
def logsOut (i : ℕ) : Bool :=
  match s.requests[i]? with
  | some (.logout _) => true
  | _ => false

/-- A new token. -/
def addToken (c : TokenClaims) (text : String) : Option ((String × String) × AuthState) :=
  if c.jti ≠ "" ∧ (lib.decode text).map (·.toDecodedClaims) = some (JwtCodec.decoded c) then
    (s.tokens.insert c).map fun tokens ↦ ((c.jti, text), { s with tokens := tokens })
  else none

variable {lib s} in
theorem addToken_spec {c : TokenClaims} {text : String} {r : String × String} {s' : AuthState}
    (h : s.addToken lib c text = some (r, s')) :
    r = (c.jti, text) ∧ c.jti ≠ "" ∧
      (lib.decode text).map (·.toDecodedClaims) = some (JwtCodec.decoded c) ∧
      s.tokens.find c.jti = none ∧ ∃ tokens, s' = { s with tokens := tokens } ∧
      ∀ v, tokens.find v = if c.jti = v then some c else s.tokens.find v := by
  unfold addToken at h
  split at h
  · next hnew =>
    obtain ⟨tokens, hinsert, hpair⟩ := Option.map_eq_some_iff.1 h
    obtain ⟨rfl, rfl⟩ := Prod.mk.inj hpair
    exact ⟨rfl, hnew.1, hnew.2, (Table.rows_of_insert hinsert).1, tokens, rfl, fun v ↦
      Table.find_insert hinsert⟩
  · cases h

/-- A token is put on the blacklist. -/
def blacklist (jti : String) (ttl_sec : ℤ) : AuthState :=
  { s with revoked := s.revoked.setEx s.now jti () ttl_sec }

/-- The chain mark of a token is set. -/
def mark (jti : String) (ttl_sec : ℤ) : AuthState :=
  { s with chain := s.chain.setEx s.now jti () ttl_sec }

/-- The refresh key is set. -/
def activate (key jti : String) (ttl_sec : ℤ) : AuthState :=
  { s with active := s.active.setEx s.now key jti ttl_sec, put := jti :: s.put }

/-- The refresh key is deleted, by thread `i`. -/
def deactivate (i : ℕ) (key : String) : AuthState :=
  { s with
    active := s.active.del key
    left := (i, key) :: s.left }

/-- The effect of a call by thread `i`. -/
def exec (i : ℕ) : (o : AuthOp) → AuthChoice → AuthState → Option (o.Res × AuthState)
  | clock, _, s => some (s.now, s)
  | verify token require_refresh, _, s =>
    match JwtCodec.verify cfg lib s.now s.now token require_refresh with
    | .error e => some (.error e, s)
    | .ok c =>
      if s.tokens.find c.jti = some c then some (.ok c, { s with accepted := i :: s.accepted })
      else none
  | issue user_id device_id is_refresh, c, s =>
    s.addToken lib (JwtCodec.sign_internal cfg s.now user_id device_id c.jti is_refresh) c.text
  | credentials _ _, c, s =>
    if c.user.any (·.1 = "") then none else some (c.user, s)
  | setRevoked jti ttl_sec, c, s =>
    some (c.reply (), if c.acts then s.blacklist jti ttl_sec else s)
  | getRevoked jti, c, s =>
    let there := (s.revoked.get s.now jti).isSome
    some (c.reply there, if there || c.fault then s else
      { s with unmarked := (i, s.now) :: s.unmarked })
  | setActive user_id device_id jti ttl_sec, c, s =>
    some (c.reply (), if c.acts then s.activate (rt_key user_id device_id) jti ttl_sec else s)
  | getActive user_id device_id, c, s =>
    let key := rt_key user_id device_id
    let v := s.active.get s.now key
    some (c.reply v, if s.logsOut i && !c.fault && v.getD "" = "" then
      { s with left := (i, key) :: s.left } else s)
  | delActive user_id device_id, c, s =>
    some (c.reply (), if c.acts then s.deactivate i (rt_key user_id device_id) else s)
  | setChain jti ttl_sec, c, s =>
    let fresh := (s.chain.get s.now jti).isNone
    some (c.reply fresh, if fresh && c.acts then s.mark jti ttl_sec else s)
  | respond rsp, _, s => some ((), { s with answers := (i, rsp) :: s.answers })

/-- The parts of the state, and what a call by thread `i` makes of them. -/
structure Effect (i : ℕ) (o : AuthOp) (s s' : AuthState) : Prop where
  now : s'.now = s.now
  requests : s'.requests = s.requests
  tokens : ∀ v c, s.tokens.find v = some c → s'.tokens.find v = some c
  revoked : s'.revoked = s.revoked ∨ ∃ jti ttl_sec, o = setRevoked jti ttl_sec
  active : s'.active = s.active ∨ (∃ uid did jti ttl_sec, o = setActive uid did jti ttl_sec) ∨
    ∃ uid did, o = delActive uid did
  chain : s'.chain = s.chain ∨ ∃ jti ttl_sec, o = setChain jti ttl_sec
  answers : s'.answers = s.answers ∨ ∃ rsp, o = respond rsp ∧ s'.answers = (i, rsp) :: s.answers
  accepted : s'.accepted = s.accepted ∨
    (∃ token require_refresh, o = verify token require_refresh) ∧ s'.accepted = i :: s.accepted
  unmarked : s'.unmarked = s.unmarked ∨
    (∃ jti, o = getRevoked jti) ∧ s'.unmarked = (i, s.now) :: s.unmarked
  left : s'.left = s.left ∨ ((∃ uid did, o = getActive uid did) ∨ ∃ uid did, o = delActive uid did) ∧
    ∃ key, s'.left = (i, key) :: s.left

theorem Effect.refl (i : ℕ) (o : AuthOp) (s : AuthState) : Effect i o s s :=
  ⟨rfl, rfl, fun _ _ h ↦ h, .inl rfl, .inl rfl, .inl rfl, .inl rfl, .inl rfl, .inl rfl, .inl rfl⟩

variable {cfg lib s} in
theorem effect_exec {i : ℕ} {o : AuthOp} {c : AuthChoice} {r : o.Res} {s' : AuthState}
    (hx : s.exec cfg lib i o c = some (r, s')) : Effect i o s s' := by
  cases o with
  | clock =>
    obtain ⟨-, rfl⟩ := Prod.mk.inj (Option.some.inj hx)
    exact .refl _ _ s
  | verify token require_refresh =>
    simp only [exec] at hx
    split at hx
    · obtain ⟨-, rfl⟩ := Prod.mk.inj (Option.some.inj hx)
      exact .refl _ _ s
    · split at hx
      · obtain ⟨-, rfl⟩ := Prod.mk.inj (Option.some.inj hx)
        exact { Effect.refl _ _ s with accepted := .inr ⟨⟨_, _, rfl⟩, rfl⟩ }
      · cases hx
  | issue uid did is_refresh =>
    obtain ⟨-, -, -, hnone, tokens, rfl, hfind⟩ := addToken_spec hx
    refine { Effect.refl _ _ s with tokens := fun v d hv ↦ ?_ }
    show tokens.find v = some d
    rw [hfind, if_neg, hv]
    rintro rfl
    rw [hnone] at hv
    cases hv
  | credentials username password =>
    simp only [exec] at hx
    split at hx
    · cases hx
    · obtain ⟨-, rfl⟩ := Prod.mk.inj (Option.some.inj hx)
      exact .refl _ _ s
  | setRevoked jti ttl_sec =>
    obtain ⟨-, rfl⟩ := Prod.mk.inj (Option.some.inj hx)
    split
    · exact { Effect.refl _ _ s with revoked := .inr ⟨_, _, rfl⟩ }
    · exact .refl _ _ s
  | getRevoked jti =>
    obtain ⟨-, rfl⟩ := Prod.mk.inj (Option.some.inj hx)
    split
    · exact .refl _ _ s
    · exact { Effect.refl _ _ s with unmarked := .inr ⟨⟨_, rfl⟩, rfl⟩ }
  | setActive uid did jti ttl_sec =>
    obtain ⟨-, rfl⟩ := Prod.mk.inj (Option.some.inj hx)
    split
    · exact { Effect.refl _ _ s with active := .inr (.inl ⟨_, _, _, _, rfl⟩) }
    · exact .refl _ _ s
  | getActive uid did =>
    obtain ⟨-, rfl⟩ := Prod.mk.inj (Option.some.inj hx)
    split
    · exact { Effect.refl _ _ s with left := .inr ⟨.inl ⟨_, _, rfl⟩, _, rfl⟩ }
    · exact .refl _ _ s
  | delActive uid did =>
    obtain ⟨-, rfl⟩ := Prod.mk.inj (Option.some.inj hx)
    split
    · exact { Effect.refl _ _ s with
        active := .inr (.inr ⟨_, _, rfl⟩)
        left := .inr ⟨.inr ⟨_, _, rfl⟩, _, rfl⟩ }
    · exact .refl _ _ s
  | setChain jti ttl_sec =>
    obtain ⟨-, rfl⟩ := Prod.mk.inj (Option.some.inj hx)
    split
    · exact { Effect.refl _ _ s with chain := .inr ⟨_, _, rfl⟩ }
    · exact .refl _ _ s
  | respond rsp =>
    obtain ⟨-, rfl⟩ := Prod.mk.inj (Option.some.inj hx)
    exact { Effect.refl _ _ s with answers := .inr ⟨_, rfl, rfl⟩ }

end AuthState

/-- What can happen beside the calls. -/
inductive AuthEv
  | login (req : LoginReq)
  /-- A `Logout` arrives, with what the gateway has read in an access token. -/
  | logout (ctx : AuthContext)
  | refresh (refresh_token : String)
  /-- Time passes. -/
  | tick (seconds : ℕ)
  /-- A thread is gone. -/
  | crash (i : ℕ)

abbrev AuthPool := Pool AuthOp AuthOp.Res AuthState

namespace AuthState

variable (cfg : JwtConfig)

/-- The metadata are those of a call that has been made with an access token. -/
def Admits (s : AuthState) (ctx : AuthContext) : Prop :=
  ∃ c, s.tokens.find ctx.jwt_jti = some c ∧ c.is_refresh = false ∧ c.sub = ctx.user_id ∧
    c.did = ctx.device_id

instance (s : AuthState) (ctx : AuthContext) : Decidable (s.Admits ctx) :=
  match h : s.tokens.find ctx.jwt_jti with
  | none => .isFalse fun ⟨c, hc, _⟩ ↦ by
      rw [h] at hc
      cases hc
  | some c =>
    decidable_of_iff (c.is_refresh = false ∧ c.sub = ctx.user_id ∧ c.did = ctx.device_id)
      ⟨fun hc ↦ ⟨c, h, hc⟩, fun ⟨c', hc', hrest⟩ ↦ by
        rw [h] at hc'
        obtain rfl := Option.some.inj hc'
        exact hrest⟩

/-- A request has arrived. -/
def arrive (req : AuthReq) (q : AuthM Unit) (p : AuthPool) : AuthPool :=
  ⟨p.threads ++ [q], { p.shared with requests := p.shared.requests ++ [req] }⟩

/-- The effect of an event. -/
def env : AuthEv → AuthPool → Option AuthPool
  | .login req, p => some (arrive (.login req) (Login cfg req) p)
  | .logout ctx, p =>
    if p.shared.Admits ctx then some (arrive (.logout ctx) (Logout cfg ctx) p) else none
  | .refresh refresh_token, p =>
    some (arrive (.refresh refresh_token) (RefreshToken cfg refresh_token) p)
  | .tick seconds, p => some { p with shared := { p.shared with now := p.shared.now + seconds } }
  | .crash i, p => some ⟨p.threads.set i (.ret ()), p.shared⟩

end AuthState

/-- The identity service. -/
def identityService (cfg : JwtConfig) (lib : JwtLib) :
    Machine AuthOp AuthOp.Res AuthState AuthChoice AuthEv :=
  ⟨AuthState.exec cfg lib, AuthState.env cfg⟩

/-! ### Tokens for concrete runs -/

/-- A configuration with one key. -/
def phoneConfig : JwtConfig where
  current_kid := "k1"
  keys := [("k1", "0123456789abcdef0123456789abcdef")]
  current_key := "0123456789abcdef0123456789abcdef"
  current_key_mem := rfl
  access_ttl_pos := by decide
  refresh_ttl_pos := by decide

/-- The header of every token that is signed with it. -/
def phoneHeader : String := "eyJhbGciOiJIUzI1NiIsImtpZCI6ImsxIiwidHlwIjoiSldUIn0."

/-- Three access tokens and three refresh tokens of one device, signed at time zero. -/
def phoneTokens : List (TokenClaims × String) :=
  [
    (JwtCodec.sign_internal phoneConfig 0 "alice" "phone" "0a0a0a0a0a0a0a0a0a0a0a0a0a0a0a0a" false,
      phoneHeader ++ "eyJkaWQiOiJwaG9uZSIsImV4cCI6NzIwMCwiaWF0IjowLCJqdGkiOiIwYTB" ++
        "hMGEwYTBhMGEwYTBhMGEwYTBhMGEwYTBhMGEwYSIsInN1YiI6ImFsaWNlIn0" ++
        ".GlllsmzbKUBnOngxx26VtqKpHhXEUR18K35ZoC16iiQ"),
    (JwtCodec.sign_internal phoneConfig 0 "alice" "phone" "0b0b0b0b0b0b0b0b0b0b0b0b0b0b0b0b" true,
      phoneHeader ++ "eyJkaWQiOiJwaG9uZSIsImV4cCI6MjU5MjAwMCwiaWF0IjowLCJqdGkiOiIwYjBiMGIwYjBi" ++
        "MGIwYjBiMGIwYjBiMGIwYjBiMGIwYiIsInN1YiI6ImFsaWNlIiwidHlwIjoicmVmcmVzaCJ9" ++
        ".gVeNzXE_w-eQ38E_Q7jSVUleY5e4i73ND51au7CnHyc"),
    (JwtCodec.sign_internal phoneConfig 0 "alice" "phone" "1a1a1a1a1a1a1a1a1a1a1a1a1a1a1a1a" false,
      phoneHeader ++ "eyJkaWQiOiJwaG9uZSIsImV4cCI6NzIwMCwiaWF0IjowLCJqdGkiOiIxYTF" ++
        "hMWExYTFhMWExYTFhMWExYTFhMWExYTFhMWExYSIsInN1YiI6ImFsaWNlIn0" ++
        ".rxFT2L0w8VJd6Gw9spTRMhhokSSKvdDiL9LlI2EmQ5A"),
    (JwtCodec.sign_internal phoneConfig 0 "alice" "phone" "1b1b1b1b1b1b1b1b1b1b1b1b1b1b1b1b" true,
      phoneHeader ++ "eyJkaWQiOiJwaG9uZSIsImV4cCI6MjU5MjAwMCwiaWF0IjowLCJqdGkiOiIxYjFiMWIxYjFi" ++
        "MWIxYjFiMWIxYjFiMWIxYjFiMWIxYiIsInN1YiI6ImFsaWNlIiwidHlwIjoicmVmcmVzaCJ9" ++
        ".1U8ux_gCmtlT_JfehwHbc1CySMzT-oYQbytZYfosMPU"),
    (JwtCodec.sign_internal phoneConfig 0 "alice" "phone" "2a2a2a2a2a2a2a2a2a2a2a2a2a2a2a2a" false,
      phoneHeader ++ "eyJkaWQiOiJwaG9uZSIsImV4cCI6NzIwMCwiaWF0IjowLCJqdGkiOiIyYTJ" ++
        "hMmEyYTJhMmEyYTJhMmEyYTJhMmEyYTJhMmEyYSIsInN1YiI6ImFsaWNlIn0" ++
        ".fvOIketd0GFGAzzCbUwEJ-d0iUmOCej5nHgDqJ3VGUo"),
    (JwtCodec.sign_internal phoneConfig 0 "alice" "phone" "2b2b2b2b2b2b2b2b2b2b2b2b2b2b2b2b" true,
      phoneHeader ++ "eyJkaWQiOiJwaG9uZSIsImV4cCI6MjU5MjAwMCwiaWF0IjowLCJqdGkiOiIyYjJiMmIyYjJi" ++
        "MmIyYjJiMmIyYjJiMmIyYjJiMmIyYiIsInN1YiI6ImFsaWNlIiwidHlwIjoicmVmcmVzaCJ9" ++
        "._UIh2Ab-u8gUjIqdVLgS0h4wHq3SB6EdauLbtoqrquA")]

/-- What the token library says of them. -/
def phoneLib : JwtLib where
  decode text := (phoneTokens.find? (·.2 = text)).map fun x ↦
    { JwtCodec.decoded x.1 with
      data := String.ofList (text.toList.take (text.length - 44))
      signature := String.ofList (text.toList.drop (text.length - 43)) }
  verify key leeway now d :=
    if key ≠ phoneConfig.current_key then .error "failed to verify signature"
    else if d.expires_at.any (fun exp : ℤ ↦ ((exp + leeway : ℤ) : ℚ) < now) then .error "token expired"
    else .ok ()

/-- The text of the token with the given number. -/
def phoneToken (n : ℕ) : String := (phoneTokens[n]?.map (·.2)).getD ""

/-- The token with the given number is issued. -/
def issues (n : ℕ) : AuthChoice where
  jti := (phoneTokens[n]?.map (·.1.jti)).getD ""
  text := phoneToken n

/-- Alice logs in on her phone: thread 0, with the first two tokens. -/
def aliceLogsIn : List (Machine.Label AuthChoice AuthEv) :=
  [.event (.login { credential := .username_pwd "alice" "pw", device_id := "phone" }),
    .call 0 { user := some ("alice", "Alice") }, .call 0 (issues 0), .call 0 (issues 1),
    .call 0 {}, .call 0 {}]

end ChatNow
