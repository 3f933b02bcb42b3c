import ChatNow.Gateway.GatewayAuth
import ChatNow.Identity.Revocation
import ChatNow.Push.ClientFrames

/-!
# Where a token lets one in

An access token is shown to the gateway in the header of an HTTP request, or to a push instance in a
`CLIENT_AUTH` frame. Both check it by themselves, with the same codec, and the codec does not look
at the blacklist: the gateway does that afterwards, the push instance does not.

An attempt to get in is a path through the program of the one or the other, with answers that the
codec and Redis can give at moments of a stretch of a run of the identity service. After a `Logout`
the token is refused exactly when it is shown to the gateway, or in a frame that lacks a field
(`revoked_refused_iff`).
-/

namespace ChatNow

open Prog

section Answers

variable (cfg : JwtConfig) (lib : JwtLib) (p₁ p₂ : AuthPool)

/-- A moment between two others of a run in which Redis answers. -/
def Between (p : AuthPool) : Prop :=
  (identityService cfg lib).Reach redisAnswers p₁ p ∧
    (identityService cfg lib).Reach redisAnswers p p₂

/-- What a call can be answered between the two moments. -/
def Given (o : AuthOp) (r : o.Res) : Prop :=
  ∃ (p : AuthPool) (i : ℕ) (c : AuthChoice) (s' : AuthState), Between cfg lib p₁ p₂ p ∧
    c.fault = false ∧ p.shared.exec cfg lib i o c = some (r, s')

/-- What a call of a push instance can be answered: the codec is the same, the rest is open. -/
def PushGiven {κ : Type} (o : FrameOp κ) (r : o.Res) : Prop :=
  match o, r with
  | .verify access_token, r => ∃ v, Given cfg lib p₁ p₂ (.verify access_token false) v ∧
      r = v.toOption.map (·.toJwtClaims)
  | _, _ => True

end Answers

/-- An attempt to get in, with the calls that are made for it. -/
inductive Attempt (κ : Type)
  /-- An HTTP request, for a route that may be on the whitelist. -/
  | http (whitelisted : Bool) (path : List (Σ o : AuthOp, o.Res))
    (result : Except ServiceError AuthInfo)
  /-- A `CLIENT_AUTH` frame on a socket. -/
  | client_auth (auth : NotifyClientAuth) (conn : κ) (path : List (Σ o : FrameOp κ, o.Res))

namespace Attempt

variable {κ : Type}

/-- The attempt is made with the token. -/
def Made (cfg : JwtConfig) (lib : JwtLib) (p₁ p₂ : AuthPool) (push : FrameConfig)
    (token : String) : Attempt κ → Prop
  | http whitelisted path result =>
    (Gateway.jwt_authenticate (some (Gateway.kPrefix ++ token)) whitelisted).Runs
      (Given cfg lib p₁ p₂) path result
  | client_auth auth conn path =>
    auth.access_token = token ∧
      (Frames.on_message push ⟨.CLIENT_AUTH, some (.client_auth auth)⟩ conn).Runs
        (PushGiven cfg lib p₁ p₂) path ()

/-- It is accepted as authenticated: the gateway says so, or the socket gets a user. -/
def Accepted : Attempt κ → Prop
  | http _ _ result => ∃ info, result = .ok info ∧ info.authed = true
  | client_auth _ conn path => ∃ uid did jti,
      (⟨.insertConn conn uid did jti, ()⟩ : Σ o : FrameOp κ, o.Res) ∈ path

/-- It is made at the gateway, or a field is missing. -/
def Barred : Attempt κ → Prop
  | http _ _ _ => True
  | client_auth auth _ _ => auth.access_token = "" ∨ auth.device_id = ""

end Attempt

namespace Frames

variable {κ : Type} {push : FrameConfig} {auth : NotifyClientAuth} {conn : κ}
  {ok : (o : FrameOp κ) → o.Res → Prop} {claims : JwtClaims}

/-- A frame with both fields and a token that the codec accepts gives the socket a user. -/
theorem inserts_iff {path : List (Σ o : FrameOp κ, o.Res)} {r : Reply Unit}
    (h : (_handle_client_auth_ push auth conn).Runs ok path r)
    (hverify : ∀ r, ok (.verify auth.access_token) r → r = some claims) :
    (∃ uid did jti, (⟨.insertConn conn uid did jti, ()⟩ : Σ o : FrameOp κ, o.Res) ∈ path) ↔
      ¬ (auth.access_token = "" ∨ auth.device_id = "") := by
  unfold _handle_client_auth_ at h
  split at h
  · next hmissing =>
    obtain ⟨-, path', rfl, -, hrest⟩ := runs_op_bind.1 h
    obtain ⟨rfl, -⟩ := runs_ret.1 hrest
    refine iff_of_false ?_ (not_not.2 hmissing)
    rintro ⟨uid, did, jti, hmem⟩
    cases List.mem_singleton.1 hmem
  · next hfields =>
    obtain ⟨r', path', rfl, hr', hrest⟩ := runs_op_bind.1 h
    obtain rfl := hverify r' hr'
    obtain ⟨-, path'', rfl, -, -⟩ := runs_op_bind.1 hrest
    refine iff_of_true ⟨claims.sub, claims.did, claims.jti, ?_⟩ hfields
    exact List.mem_cons_of_mem _ List.mem_cons_self

/-- Whether or not the socket has a user already. -/
theorem on_message_inserts_iff {path : List (Σ o : FrameOp κ, o.Res)}
    (h : (on_message push ⟨.CLIENT_AUTH, some (.client_auth auth)⟩ conn).Runs ok path ())
    (hverify : ∀ r, ok (.verify auth.access_token) r → r = some claims) :
    (∃ uid did jti, (⟨.insertConn conn uid did jti, ()⟩ : Σ o : FrameOp κ, o.Res) ∈ path) ↔
      ¬ (auth.access_token = "" ∨ auth.device_id = "") := by
  obtain ⟨c, path', rfl, -, hrest⟩ := runs_op_bind.1 h
  cases c with
  | none =>
    obtain ⟨tr₁, r, tr₂, rfl, hauth, hret⟩ := runs_bind.1 hrest
    obtain ⟨rfl, -⟩ := runs_ret.1 hret
    have hiff : _ ↔ ¬ (auth.access_token = "" ∨ auth.device_id = "") := inserts_iff hauth hverify
    rw [← hiff, List.append_nil]
    simp
  | some c =>
    obtain ⟨-, path', rfl, -, hrest⟩ := runs_op_bind.1 hrest
    obtain ⟨tr₁, r, tr₂, rfl, hauth, hret⟩ := runs_bind.1 hrest
    have hnil : tr₂ = [] := by
      cases r with
      | thrown => exact (runs_ret.1 hret).1
      | ok _ => exact (runs_ret.1 hret).1
    have hiff : _ ↔ ¬ (auth.access_token = "" ∨ auth.device_id = "") := inserts_iff hauth hverify
    rw [← hiff, hnil, List.append_nil]
    simp

end Frames

/-! ### After a `Logout` -/

/-- Time does not go back. -/
theorem now_le_of_reach {cfg : JwtConfig} {lib : JwtLib} {p p' : AuthPool}
    (h : (identityService cfg lib).Reach redisAnswers p p') : p.shared.now ≤ p'.shared.now := by
  induction h with
  | refl => exact le_rfl
  | tail _ hs ih =>
    refine ih.trans ?_
    cases hs with
    | call hi hG hx => exact le_of_eq (AuthState.effect_exec hx).now.symm
    | @event _ e hG hx =>
      cases e with
      | tick n =>
        obtain rfl := Option.some.inj hx
        exact Int.le_add_of_nonneg_right (Int.natCast_nonneg n)
      | logout ctx =>
        simp only [identityService, AuthState.env] at hx
        split at hx
        · obtain rfl := Option.some.inj hx
          exact le_rfl
        · cases hx
      | _ =>
        obtain rfl := Option.some.inj hx
        exact le_rfl

/-- The codec accepts a token that is valid and has been issued. -/
theorem given_ok {cfg : JwtConfig} {lib : JwtLib} {p₁ p₂ p : AuthPool} {token : String}
    {c : TokenClaims} (hp : Between cfg lib p₁ p₂ p)
    (hvalid : JwtCodec.verify cfg lib p.shared.now p.shared.now token false = .ok c)
    (hissued : p.shared.tokens.find c.jti = some c) :
    Given cfg lib p₁ p₂ (.verify token false) (.ok c) := by
  refine ⟨p, 0, {}, { p.shared with accepted := 0 :: p.shared.accepted }, hp, rfl, ?_⟩
  simp only [AuthState.exec, hvalid]
  rw [if_pos hissued]

section Refused

variable {cfg : JwtConfig} {lib : JwtLib} {p₁ p₂ : AuthPool} {token : String} {c : TokenClaims}

/-- What the codec answers for a token that is valid all the time. -/
theorem given_verify
    (hvalid : ∀ p, Between cfg lib p₁ p₂ p →
      JwtCodec.verify cfg lib p.shared.now p.shared.now token false = .ok c)
    {r : Except JwtThrown TokenClaims} (h : Given cfg lib p₁ p₂ (.verify token false) r) :
    r = .ok c := by
  obtain ⟨p, i, ch, s', hp, -, hx⟩ := h
  simp only [AuthState.exec, hvalid p hp] at hx
  split at hx
  · exact (Prod.mk.inj (Option.some.inj hx)).1.symm
  · cases hx

/-- The gateway does not accept a token that is on the blacklist all the time. -/
theorem jwt_authenticate_refuses {whitelisted : Bool} {path : List (Σ o : AuthOp, o.Res)}
    {info : AuthInfo}
    (h : (Gateway.jwt_authenticate (some (Gateway.kPrefix ++ token)) whitelisted).Runs
      (Given cfg lib p₁ p₂) path (.ok info)) (hne : c.jti ≠ "")
    (hvalid : ∀ p, Between cfg lib p₁ p₂ p →
      JwtCodec.verify cfg lib p.shared.now p.shared.now token false = .ok c)
    (hbarred : ∀ p, Between cfg lib p₁ p₂ p → p.shared.Barred c) : info.authed = false := by
  unfold Gateway.jwt_authenticate at h
  split at h
  · obtain ⟨-, hinfo⟩ := runs_ret.1 h
    obtain rfl := Except.ok.inj hinfo
    rfl
  · by_cases htoken : token = ""
    · subst htoken
      have hnone : Gateway.bearer_token (Gateway.kPrefix ++ "") = none := by decide
      dsimp only at h
      rw [hnone] at h
      cases (runs_ret.1 h).2
    · dsimp only at h
      rw [Gateway.bearer_token_append htoken] at h
      obtain ⟨r, path', rfl, hr, hrest⟩ := runs_op_bind.1 h
      obtain rfl := given_verify hvalid hr
      obtain ⟨tr₁, there, tr₂, -, hcheck, hend⟩ := runs_bind.1 hrest
      rw [JwtStore.is_revoked, if_neg hne] at hcheck
      obtain ⟨r, path', -, ⟨p, i, ch, s', hp, hfault, hx⟩, hret⟩ := runs_op_bind.1 hcheck
      obtain ⟨hr, -⟩ := Prod.mk.inj (Option.some.inj hx)
      -- the token has not expired, so it is still on the blacklist
      have hlisted : p.shared.revoked.get p.shared.now c.jti = some () := by
        obtain ⟨-, -, -, -, -, -, -, hlt⟩ := JwtCodec.verify_ok (hvalid p hp)
        have hlt : p.shared.now < c.exp_sec := Int.cast_lt.1 hlt
        rcases hbarred p hp with hexp | ⟨e, he, hexp⟩
        · omega
        · exact Expiring.get_of_lt he (by omega)
      rw [ch.reply_of_answered hfault, hlisted] at hr
      obtain rfl := hr.symm
      obtain ⟨-, rfl⟩ := runs_ret.1 hret
      cases (runs_ret.1 hend).2

end Refused

/-- **A token that has been logged out is refused** exactly when it is shown to the gateway, or in a
frame without one of the two fields. -/
theorem revoked_refused_iff {κ : Type} (cfg : JwtConfig) (lib : JwtLib) (s₀ : AuthState)
    (hs : s₀.Fresh) (p₁ p₂ : AuthPool)
    (h₁ : (identityService cfg lib).Reach redisAnswers ⟨[], s₀⟩ p₁) (l : ℕ) (ctx : AuthContext)
    (hl : p₁.shared.requests[l]? = some (.logout ctx)) (hok : p₁.shared.Succeeds l)
    (token : String) (c : TokenClaims) (hjti : c.jti = ctx.jwt_jti)
    (hissued : p₁.shared.tokens.find c.jti = some c)
    (hvalid : ∀ p, Between cfg lib p₁ p₂ p →
      JwtCodec.verify cfg lib p.shared.now p.shared.now token false = .ok c)
    (push : FrameConfig) (a : Attempt κ) (ha : a.Made cfg lib p₁ p₂ push token) :
    ¬ a.Accepted ↔ a.Barred := by
  obtain ⟨d, hd, hne, hbars⟩ := logout_bars_token hs h₁ hl hok
  obtain rfl : c = d := by
    have hfind := (hbars p₁ .refl).1
    rw [hd, ← hjti, hissued] at hfind
    exact Option.some.inj hfind
  cases a with
  | http whitelisted path result =>
    refine iff_of_true ?_ trivial
    rintro ⟨info, rfl, hauthed⟩
    have hrefused := jwt_authenticate_refuses ha hne hvalid fun p hp ↦ (hbars p hp.1).2
    rw [hrefused] at hauthed
    cases hauthed
  | client_auth auth conn path =>
    obtain ⟨rfl, hruns⟩ := ha
    have hverify : ∀ r, PushGiven cfg lib p₁ p₂ (.verify auth.access_token : FrameOp κ) r →
        r = some c.toJwtClaims := by
      rintro r ⟨v, hv, rfl⟩
      rw [given_verify hvalid hv]
      rfl
    rw [Attempt.Accepted, Frames.on_message_inserts_iff hruns hverify, not_not]
    rfl

/-- The access token of alice's phone. -/
def aliceAccess : TokenClaims :=
  JwtCodec.sign_internal phoneConfig 0 "alice" "phone" "0a0a0a0a0a0a0a0a0a0a0a0a0a0a0a0a" false

/-- A push instance. -/
def phonePush : FrameConfig where
  instance_id := "push-1"
  base64_decode s := s
  presence_change _ state := state

/-- Alice has logged in and out: thread 1. -/
def aliceLogsOut : List (Machine.Label AuthChoice AuthEv) :=
  aliceLogsIn ++ [.event (.logout alicePhone)] ++ List.replicate 5 (.call 1 {})

/-- While no time passes her token is valid. -/
theorem aliceAccess_valid {p₁ p : AuthPool} (hnow : p₁.shared.now = 0)
    (hp : Between phoneConfig phoneLib p₁ p₁ p) :
    JwtCodec.verify phoneConfig phoneLib p.shared.now p.shared.now (phoneToken 0) false =
      .ok aliceAccess := by
  have hge := now_le_of_reach hp.1
  have hle := now_le_of_reach hp.2
  have hzero : p.shared.now = 0 := by omega
  rw [hzero]
  decide +kernel

/-- She shows it to the gateway. -/
theorem revoked_refused_iff_alice :
    ({} : AuthState).Fresh ∧ ∃ p₁,
      (identityService phoneConfig phoneLib).Reach redisAnswers ⟨[], {}⟩ p₁ ∧
      p₁.shared.Succeeds 1 ∧ ∃ a : Attempt ℕ,
      a.Made phoneConfig phoneLib p₁ p₁ phonePush (phoneToken 0) ∧ ¬ a.Accepted := by
  have hfresh : ({} : AuthState).Fresh := ⟨rfl, rfl, rfl, rfl, rfl, rfl, rfl, rfl, rfl⟩
  obtain ⟨p₁, hp₁, hlogout, hok, hnow, hissued, hlisted⟩ := Machine.exists_of_run
    (identityService phoneConfig phoneLib) redisAnswers ⟨[], {}⟩ aliceLogsOut
    (fun p ↦ p.shared.requests[1]? = some (.logout alicePhone) ∧ p.shared.Succeeds 1 ∧
      p.shared.now = 0 ∧ p.shared.tokens.find aliceAccess.jti = some aliceAccess ∧
      p.shared.revoked.get p.shared.now aliceAccess.jti = some ()) (by decide +kernel)
  have hbetween : Between phoneConfig phoneLib p₁ p₁ p₁ := ⟨.refl, .refl⟩
  have hverify := given_ok hbetween (aliceAccess_valid hnow hbetween) hissued
  have hlisted' : Given phoneConfig phoneLib p₁ p₁ (.getRevoked aliceAccess.jti) (.ok true) := by
    refine ⟨p₁, 0, {}, p₁.shared, hbetween, rfl, ?_⟩
    simp only [AuthState.exec, hlisted]
    rfl
  have hmade : (Attempt.http false [⟨.verify (phoneToken 0) false, Except.ok aliceAccess⟩,
      ⟨.getRevoked aliceAccess.jti, Reply.ok true⟩]
      (.error ⟨error.kAuthTokenInvalid, "token revoked"⟩) : Attempt ℕ).Made phoneConfig phoneLib
      p₁ p₁ phonePush (phoneToken 0) := by
    have hbearer : Gateway.bearer_token (Gateway.kPrefix ++ phoneToken 0) = some (phoneToken 0) :=
      Gateway.bearer_token_append (by decide +kernel)
    simp only [Attempt.Made, Gateway.jwt_authenticate, hbearer]
    exact .call hverify (.call hlisted' (.ret _))
  refine ⟨hfresh, p₁, hp₁, hok, _, hmade, ?_⟩
  exact (revoked_refused_iff phoneConfig phoneLib {} hfresh p₁ p₁ hp₁ 1 alicePhone hlogout hok
    (phoneToken 0) aliceAccess rfl hissued (fun p hp ↦ aliceAccess_valid hnow hp) phonePush _
    hmade).2 trivial

/-- She shows it to a push instance. -/
theorem revoked_enters_push :
    ∃ p₁, (identityService phoneConfig phoneLib).Reach redisAnswers ⟨[], {}⟩ p₁ ∧
      p₁.shared.requests[1]? = some (.logout alicePhone) ∧ p₁.shared.Succeeds 1 ∧
      p₁.shared.revoked.get p₁.shared.now alicePhone.jwt_jti = some () ∧
      JwtCodec.verify phoneConfig phoneLib p₁.shared.now p₁.shared.now (phoneToken 0) false =
        .ok aliceAccess ∧
      aliceAccess.jti = alicePhone.jwt_jti ∧ ∃ a : Attempt ℕ,
      a.Made phoneConfig phoneLib p₁ p₁ phonePush (phoneToken 0) ∧ a.Accepted := by
  obtain ⟨p₁, hp₁, hlogout, hok, hnow, hissued, hlisted⟩ := Machine.exists_of_run
    (identityService phoneConfig phoneLib) redisAnswers ⟨[], {}⟩ aliceLogsOut
    (fun p ↦ p.shared.requests[1]? = some (.logout alicePhone) ∧ p.shared.Succeeds 1 ∧
      p.shared.now = 0 ∧ p.shared.tokens.find aliceAccess.jti = some aliceAccess ∧
      p.shared.revoked.get p.shared.now aliceAccess.jti = some ()) (by decide +kernel)
  have hbetween : Between phoneConfig phoneLib p₁ p₁ p₁ := ⟨.refl, .refl⟩
  have hvalid := aliceAccess_valid hnow hbetween
  have hverify := given_ok hbetween hvalid hissued
  refine ⟨p₁, hp₁, hlogout, hok, hlisted, hvalid, rfl, .client_auth ⟨phoneToken 0, "phone", none⟩ 7
    [⟨.client 7, none⟩, ⟨.verify (phoneToken 0), some aliceAccess.toJwtClaims⟩,
      ⟨.insertConn 7 "alice" "phone" aliceAccess.jti, ()⟩, ⟨.bindRoute "alice" "phone" "push-1", ()⟩,
      ⟨.writePresence "alice" "phone" "ONLINE", ()⟩, ⟨.presenceSubs "alice", .ok []⟩],
    ⟨rfl, ?_⟩, "alice", "phone", _, List.mem_cons_of_mem _ (List.mem_cons_of_mem _
      List.mem_cons_self)⟩
  refine .call trivial ?_
  have hfields : ¬ (phoneToken 0 = "" ∨ "phone" = "") := by decide +kernel
  show (Frames._handle_client_auth_ phonePush ⟨phoneToken 0, "phone", none⟩ 7 >>= _).Runs _ _ _
  rw [Frames._handle_client_auth_, if_neg hfields]
  exact .call ⟨_, hverify, rfl⟩ (.call trivial (.call trivial (.call trivial (.call trivial
    (.ret _)))))

end ChatNow
