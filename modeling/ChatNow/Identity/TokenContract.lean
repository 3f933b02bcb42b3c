import ChatNow.Identity.Tokens

/-!
# What the identity service does in which order

The contract of the programs of `Tokens.lean`, when Redis answers every command. A call has a phase
(`AuthPhase`); for `RefreshToken` it follows the three checks of the token, the chain mark, the new
refresh key and the blacklist, for `Logout` it says whether the refresh key of the device is gone.
Beside it the contract keeps the refresh tokens that the call has issued and not yet put under a
refresh key.
-/

namespace ChatNow

open Prog AuthOp

/-- What a call has been asked. -/
inductive AuthReq
  | login (req : LoginReq)
  | logout (ctx : AuthContext)
  | refresh (refresh_token : String)
  deriving DecidableEq

/-- How far a call has come. -/
inductive AuthPhase
  | start
  /-- The signature is right. -/
  | verified (c : TokenClaims)
  /-- The token is on the blacklist. -/
  | blacklisted (c : TokenClaims)
  /-- The token is not on the blacklist. -/
  | unrevoked (c : TokenClaims)
  /-- The refresh key of the device holds the token. -/
  | matched (c : TokenClaims)
  /-- The chain mark of the token has been set. -/
  | chained (c : TokenClaims)
  /-- The refresh key holds the new token. -/
  | rotated (c : TokenClaims)
  /-- The clock has been read. -/
  | clocked (c : TokenClaims) (now : ℤ)
  /-- The token is on the blacklist, or has expired. -/
  | spent (c : TokenClaims)
  /-- Success has been answered. -/
  | won (c : TokenClaims)
  /-- The token has been used before. -/
  | reused (c : TokenClaims)
  /-- And the refresh key of its device has been deleted. -/
  | wiped (c : TokenClaims)
  /-- A `Logout` has found a refresh token. -/
  | leaving
  /-- A `Logout` has found none, or has deleted it. -/
  | left
  | failed

/-- A call. -/
structure AuthCall where
  req : AuthReq
  phase : AuthPhase := .start
  /-- The refresh tokens that it has issued and not put under a key. -/
  held : List String := []

namespace AuthPhase

/-- The claims of a token that the refresh key has held when the call looked. -/
def past : AuthPhase → Option TokenClaims
  | matched c => some c
  | chained c => some c
  | rotated c => some c
  | clocked c _ => some c
  | spent c => some c
  | won c => some c
  | _ => none

/-- The claims of a token that has been exchanged. -/
def exchanged : AuthPhase → Option TokenClaims
  | rotated c => some c
  | clocked c _ => some c
  | spent c => some c
  | won c => some c
  | _ => none

/-- The claims of the token. -/
def claims : AuthPhase → Option TokenClaims
  | verified c => some c
  | blacklisted c => some c
  | unrevoked c => some c
  | reused c => some c
  | wiped c => some c
  | ph => ph.past

/-- The claims of a token that the call is about to exchange. -/
def flying : AuthPhase → Option TokenClaims
  | matched c => some c
  | chained c => some c
  | _ => none

theorem claims_of_past {ph : AuthPhase} {c : TokenClaims} (h : ph.past = some c) :
    ph.claims = some c := by
  cases ph <;> first | exact h | cases h

theorem past_of_flying {ph : AuthPhase} {c : TokenClaims} (h : ph.flying = some c) :
    ph.past = some c := by
  cases ph <;> first | exact h | cases h

theorem past_of_exchanged {ph : AuthPhase} {c : TokenClaims} (h : ph.exchanged = some c) :
    ph.past = some c := by
  cases ph <;> first | exact h | cases h

end AuthPhase

namespace AuthCall

variable (cfg : JwtConfig) (t : AuthCall)

/-- The call is a `Logout` with the metadata of the device. -/
def LogsOut (user_id device_id : String) : Prop :=
  ∃ ctx, t.req = .logout ctx ∧ ctx.user_id = user_id ∧ ctx.device_id = device_id

/-- What the call may do. -/
def allowed : AuthOp → Prop
  | clock => True
  | verify token require_refresh =>
    t.req = .refresh token ∧ require_refresh = true ∧ t.phase = .start
  | issue user_id device_id _ => user_id ≠ "" ∧ device_id ≠ ""
  | credentials _ _ => True
  | setRevoked jti ttl_sec =>
    (∃ ctx, t.req = .logout ctx ∧ (jti = ctx.jwt_jti ∨ ttl_sec = cfg.refresh_ttl_sec)) ∨
      (∃ c, t.phase = .reused c ∧ ttl_sec = cfg.refresh_ttl_sec) ∨
      ∃ c now, t.phase = .clocked c now ∧ jti = c.jti ∧ ttl_sec = c.exp_sec - now
  | getRevoked jti => ∃ c, t.phase = .verified c ∧ jti = c.jti
  | setActive user_id device_id jti ttl_sec =>
    jti ∈ t.held ∧ ttl_sec = cfg.refresh_ttl_sec ∧ ((∃ req, t.req = .login req) ∨
      ∃ c, t.phase = .chained c ∧ user_id = c.sub ∧ device_id = c.did)
  | getActive user_id device_id =>
    (t.LogsOut user_id device_id ∧ t.phase = .start) ∨
      ∃ c, t.phase = .unrevoked c ∧ user_id = c.sub ∧ device_id = c.did
  | delActive user_id device_id =>
    (t.LogsOut user_id device_id ∧ t.phase = .leaving) ∨
      ∃ c, t.phase = .reused c ∧ user_id = c.sub ∧ device_id = c.did
  | setChain jti ttl_sec => ∃ c, t.phase = .matched c ∧ jti = c.jti ∧
      ttl_sec = JwtStore.kChainTtlSec
  | respond (.ok _) => (∃ req, t.req = .login req) ∨ t.phase = .left ∨ (∃ c, t.phase = .spent c) ∨
      ∃ c now, t.phase = .clocked c now ∧ c.exp_sec ≤ now
  | respond (.error e) =>
    (e.code = error.kAuthRefreshTokenReused ∧ ∃ c, t.phase = .wiped c) ∨
      e.code ≠ error.kAuthRefreshTokenReused ∧
        ((∃ req, t.req = .login req) ∨ t.phase = .failed ∨ ∃ c, t.phase = .blacklisted c)

/-- What the call may get. -/
def admits : (o : AuthOp) → o.Res → Prop
  | verify _ _, .ok c => c.sub ≠ "" ∧ c.did ≠ "" ∧ c.jti ≠ ""
  | verify _ _, .error (.service e) => e.code ≠ error.kAuthRefreshTokenReused
  | issue _ _ _, (jti, _) => jti ≠ ""
  | credentials _ _, some (user_id, _) => user_id ≠ ""
  | setRevoked _ _, r => r = .ok ()
  | getRevoked _, r => r ≠ .thrown
  | setActive _ _ _ _, r => r = .ok ()
  | getActive _ _, r => r ≠ .thrown
  | delActive _ _, r => r = .ok ()
  | setChain _ _, r => r ≠ .thrown
  | _, _ => True

/-- The phase after an answer. -/
def nextPhase (ph : AuthPhase) : (o : AuthOp) → o.Res → AuthPhase
  | clock, now =>
    match ph with
    | .rotated c => .clocked c now
    | ph => ph
  | verify _ _, .ok c => .verified c
  | verify _ _, .error _ => .failed
  | setRevoked _ _, _ =>
    match ph with
    | .clocked c _ => .spent c
    | ph => ph
  | getRevoked _, r =>
    match ph with
    | .verified c => if r = .ok true then .blacklisted c else .unrevoked c
    | ph => ph
  | setActive _ _ _ _, _ =>
    match ph with
    | .chained c => .rotated c
    | ph => ph
  | getActive _ _, r =>
    match ph, r with
    | .unrevoked c, .ok v => if v.getD "" = c.jti then .matched c else .reused c
    | .start, .ok v => if v.getD "" = "" then .left else .leaving
    | ph, _ => ph
  | delActive _ _, _ =>
    match ph with
    | .reused c => .wiped c
    | .leaving => .left
    | ph => ph
  | setChain _ _, r =>
    match ph with
    | .matched c => if r = .ok false then .reused c else .chained c
    | ph => ph
  | respond (.ok _), _ =>
    match ph with
    | .spent c => .won c
    | .clocked c _ => .won c
    | ph => ph
  | _, _ => ph

/-- The tokens held after an answer. -/
def nextHeld (held : List String) : (o : AuthOp) → o.Res → List String
  | issue _ _ true, (jti, _) => jti :: held
  | setActive _ _ _ _, _ => []
  | _, _ => held

/-! What the operations that may come in several phases change. -/

theorem nextPhase_clock (ph : AuthPhase) (now : ℤ) :
    (∃ c, ph = .rotated c ∧ nextPhase ph clock now = .clocked c now) ∨
      nextPhase ph clock now = ph := by
  cases ph <;> first | exact .inr rfl | exact .inl ⟨_, rfl, rfl⟩

theorem nextPhase_setRevoked (ph : AuthPhase) (jti : String) (ttl_sec : ℤ) (r : Reply Unit) :
    (∃ c now, ph = .clocked c now ∧ nextPhase ph (setRevoked jti ttl_sec) r = .spent c) ∨
      nextPhase ph (setRevoked jti ttl_sec) r = ph := by
  cases ph <;> first | exact .inr rfl | exact .inl ⟨_, _, rfl, rfl⟩

theorem nextPhase_setActive (ph : AuthPhase) (uid did jti : String) (ttl_sec : ℤ)
    (r : Reply Unit) :
    (∃ c, ph = .chained c ∧ nextPhase ph (setActive uid did jti ttl_sec) r = .rotated c) ∨
      nextPhase ph (setActive uid did jti ttl_sec) r = ph := by
  cases ph <;> first | exact .inr rfl | exact .inl ⟨_, rfl, rfl⟩

theorem nextPhase_respond (ph : AuthPhase) (rsp : AuthRsp) :
    (∃ c, (ph = .spent c ∨ ∃ now, ph = .clocked c now) ∧
      nextPhase ph (respond (.ok rsp)) () = .won c) ∨
      nextPhase ph (respond (.ok rsp)) () = ph := by
  cases ph <;> first
    | exact .inr rfl
    | exact .inl ⟨_, .inl rfl, rfl⟩
    | exact .inl ⟨_, .inr ⟨_, rfl⟩, rfl⟩

/-! And which phases may follow one another. -/

/-- One phase follows another, at a call. -/
inductive Turn : AuthPhase → AuthOp → AuthPhase → Prop
  | stay (ph : AuthPhase) (o : AuthOp) : Turn ph o ph
  | reject (ph : AuthPhase) (token : String) (require_refresh : Bool) :
    Turn ph (verify token require_refresh) .failed
  | accept (ph : AuthPhase) (token : String) (require_refresh : Bool) (c : TokenClaims) :
    Turn ph (verify token require_refresh) (.verified c)
  | barred (c : TokenClaims) (jti : String) : Turn (.verified c) (getRevoked jti) (.blacklisted c)
  | unbarred (c : TokenClaims) (jti : String) : Turn (.verified c) (getRevoked jti) (.unrevoked c)
  | find (c : TokenClaims) (uid did : String) :
    Turn (.unrevoked c) (getActive uid did) (.matched c)
  | miss (c : TokenClaims) (uid did : String) :
    Turn (.unrevoked c) (getActive uid did) (.reused c)
  | stays (uid did : String) : Turn .start (getActive uid did) .leaving
  | leave (uid did : String) : Turn .start (getActive uid did) .left
  | mark (c : TokenClaims) (jti : String) (ttl_sec : ℤ) :
    Turn (.matched c) (setChain jti ttl_sec) (.chained c)
  | late (c : TokenClaims) (jti : String) (ttl_sec : ℤ) :
    Turn (.matched c) (setChain jti ttl_sec) (.reused c)
  | rotate (c : TokenClaims) (uid did jti : String) (ttl_sec : ℤ) :
    Turn (.chained c) (setActive uid did jti ttl_sec) (.rotated c)
  | read (c : TokenClaims) (now : ℤ) : Turn (.rotated c) clock (.clocked c now)
  | bar (c : TokenClaims) (now : ℤ) (jti : String) (ttl_sec : ℤ) :
    Turn (.clocked c now) (setRevoked jti ttl_sec) (.spent c)
  | wipe (c : TokenClaims) (uid did : String) : Turn (.reused c) (delActive uid did) (.wiped c)
  | clear (uid did : String) : Turn .leaving (delActive uid did) .left
  | win (c : TokenClaims) (rsp : AuthRsp) : Turn (.spent c) (respond (.ok rsp)) (.won c)
  | winLate (c : TokenClaims) (now : ℤ) (rsp : AuthRsp) :
    Turn (.clocked c now) (respond (.ok rsp)) (.won c)

/-- Every step of a call is one of these. -/
theorem turn_nextPhase (ph : AuthPhase) (o : AuthOp) (r : o.Res) : Turn ph o (nextPhase ph o r) := by
  cases o with
  | clock =>
    cases ph with
    | rotated c => exact .read c r
    | _ => exact .stay _ _
  | verify token require_refresh =>
    cases r with
    | ok c => exact .accept ph token require_refresh c
    | error e => exact .reject ph token require_refresh
  | issue uid did is_refresh => exact .stay _ _
  | credentials username password => exact .stay _ _
  | setRevoked jti ttl_sec =>
    cases ph with
    | clocked c now => exact .bar c now jti ttl_sec
    | _ => exact .stay _ _
  | getRevoked jti =>
    cases ph with
    | verified c =>
      simp only [nextPhase]
      split
      · exact .barred c jti
      · exact .unbarred c jti
    | _ => exact .stay _ _
  | setActive uid did jti ttl_sec =>
    cases ph with
    | chained c => exact .rotate c uid did jti ttl_sec
    | _ => exact .stay _ _
  | getActive uid did =>
    cases r with
    | thrown => cases ph <;> exact .stay _ _
    | ok v =>
      cases ph with
      | start =>
        simp only [nextPhase]
        split
        · exact .leave uid did
        · exact .stays uid did
      | unrevoked c =>
        simp only [nextPhase]
        split
        · exact .find c uid did
        · exact .miss c uid did
      | _ => exact .stay _ _
  | delActive uid did =>
    cases ph with
    | reused c => exact .wipe c uid did
    | leaving => exact .clear uid did
    | _ => exact .stay _ _
  | setChain jti ttl_sec =>
    cases ph with
    | matched c =>
      simp only [nextPhase]
      split
      · exact .late c jti ttl_sec
      · exact .mark c jti ttl_sec
    | _ => exact .stay _ _
  | respond rsp =>
    cases rsp with
    | error e => exact .stay _ _
    | ok rsp =>
      cases ph with
      | spent c => exact .win c rsp
      | clocked c now => exact .winLate c now rsp
      | _ => exact .stay _ _

variable {ph : AuthPhase} {o : AuthOp} {r : o.Res} {c : TokenClaims}

/-- Beside looking for its token under the refresh key, a call does not come past it. -/
theorem past_nextPhase (hget : ∀ uid did, o ≠ getActive uid did)
    (h : (nextPhase ph o r).past = some c) : ph.past = some c := by
  have hturn := turn_nextPhase ph o r
  generalize nextPhase ph o r = ph' at hturn h
  cases hturn with
  | find d uid did => exact absurd rfl (hget uid did)
  | reject _ _ _ => cases h
  | accept _ _ _ _ => cases h
  | late _ _ _ => cases h
  | _ => exact h

/-- A `Logout` comes to its end at the refresh key. -/
theorem left_nextPhase (h : nextPhase ph o r = .left) :
    ph = .left ∨ (∃ uid did, o = getActive uid did) ∨ ∃ uid did, o = delActive uid did := by
  have hturn := turn_nextPhase ph o r
  rw [h] at hturn
  cases hturn with
  | stay _ _ => exact .inl rfl
  | leave uid did => exact .inr (.inl ⟨uid, did, rfl⟩)
  | clear uid did => exact .inr (.inr ⟨uid, did, rfl⟩)

/-- A call whose token has been exchanged puts it on the blacklist, or goes without when the token
has expired. -/
theorem settled_nextPhase (h : nextPhase ph o r = .spent c ∨ nextPhase ph o r = .won c) :
    (ph = .spent c ∨ ph = .won c) ∨ ∃ now, ph = .clocked c now ∧
      ((∃ jti ttl_sec, o = setRevoked jti ttl_sec) ∨ ∃ rsp, o = respond (.ok rsp)) := by
  have hturn := turn_nextPhase ph o r
  rcases h with h | h
  · rw [h] at hturn
    cases hturn with
    | stay _ _ => exact .inl (.inl rfl)
    | bar d now jti ttl_sec => exact .inr ⟨now, rfl, .inl ⟨jti, ttl_sec, rfl⟩⟩
  · rw [h] at hturn
    cases hturn with
    | stay _ _ => exact .inl (.inr rfl)
    | win d rsp => exact .inl (.inl rfl)
    | winLate d now rsp => exact .inr ⟨now, rfl, .inr ⟨rsp, rfl⟩⟩

/-- A call comes past the refresh key by finding its token there. -/
theorem past_getActive {uid did : String} {r : Reply (Option String)}
    (h : (nextPhase ph (getActive uid did) r).past = some c) :
    ph.past = some c ∨ ph = .unrevoked c ∧ ∃ v, r = .ok v ∧ v.getD "" = c.jti := by
  cases ph with
  | start =>
    cases r with
    | thrown => cases h
    | ok v =>
      simp only [nextPhase] at h
      split at h <;> cases h
  | unrevoked d =>
    cases r with
    | thrown => cases h
    | ok v =>
      simp only [nextPhase] at h
      split at h
      · next hv =>
        obtain rfl := Option.some.inj h
        exact .inr ⟨rfl, v, rfl, hv⟩
      · cases h
  | _ => exact .inl h

end AuthCall

/-- What a call of the identity service may do, and what it gets. -/
def authContract (cfg : JwtConfig) : Contract AuthOp AuthOp.Res AuthCall where
  allowed t o := t.allowed cfg o
  admits _ o r := AuthCall.admits o r
  next t o r :=
    { req := t.req, phase := AuthCall.nextPhase t.phase o r
      held := AuthCall.nextHeld t.held o r }

/-! ### The RPCs keep to it -/

section Meets

variable {cfg : JwtConfig}

/-- `revoke`, where the command that it may give is allowed and changes neither the phase nor what
is held. -/
theorem JwtStore.revoke_meets {t : AuthCall} {jti : String} {ttl_sec : ℤ}
    (ha : t.allowed cfg (setRevoked jti ttl_sec)) (hphase : ∀ c now, t.phase ≠ .clocked c now) :
    (JwtStore.revoke jti ttl_sec).Meets (authContract cfg) t fun t' _ ↦ t' = t := by
  unfold JwtStore.revoke
  split
  · rfl
  · refine meets_op_bind.2 ⟨ha, fun r _ ↦ ?_⟩
    have hkept : AuthCall.nextPhase t.phase (setRevoked jti ttl_sec) r = t.phase := by
      cases hph : t.phase with
      | clocked c now => exact absurd hph (hphase c now)
      | _ => rfl
    show { t with phase := AuthCall.nextPhase t.phase (setRevoked jti ttl_sec) r } = t
    rw [hkept]

/-- A token that has been used is put on the blacklist, and the refresh key of its device is
deleted. -/
theorem reject_reused_meets {t : AuthCall} {c : TokenClaims} (h : t.phase = .reused c)
    (message : String) :
    (reject_reused cfg c message).Meets (authContract cfg) t fun t' rsp ↦
      t'.phase = .wiped c ∧ rsp = .error ⟨error.kAuthRefreshTokenReused, message⟩ := by
  have hrevoke : (JwtStore.revoke c.jti cfg.refresh_ttl_sec).Meets (authContract cfg) t
      fun t' _ ↦ t' = t := by
    refine JwtStore.revoke_meets (.inr (.inl ⟨c, h, rfl⟩)) fun _ _ hclocked ↦ ?_
    rw [h] at hclocked
    cases hclocked
  refine hrevoke.bind fun t' _ ht' ↦ ?_
  rw [ht']
  refine meets_op_bind.2 ⟨.inr ⟨c, h, rfl, rfl⟩, fun r _ ↦ ⟨?_, rfl⟩⟩
  show AuthCall.nextPhase t.phase (delActive c.sub c.did) r = _
  rw [h]
  rfl

/-- Where a rotation leaves the call. -/
def AuthCall.Rotated (c : TokenClaims) (t : AuthCall) : JwtStore.RotateResult → Prop
  | .kOk => t.phase = .rotated c
  | .kReuseDetected => t.phase = .reused c

theorem JwtStore.rotate_meets {req : AuthReq} {c : TokenClaims} {jti : String} (hsub : c.sub ≠ "")
    (hdid : c.did ≠ "") (hjti : jti ≠ "") :
    (rotate_refresh_or_detect_reuse c.sub c.did c.jti jti cfg.refresh_ttl_sec).Meets
      (authContract cfg) ⟨req, .matched c, [jti]⟩ (AuthCall.Rotated c) := by
  refine meets_op_bind.2 ⟨⟨c, rfl, rfl, rfl⟩, fun r hr ↦ ?_⟩
  cases r with
  | thrown => exact absurd rfl hr
  | ok fresh =>
    cases fresh with
    | false => exact rfl
    | true =>
      have hput : ¬ (c.sub = "" ∨ c.did = "" ∨ jti = "") := by
        rintro (h | h | h)
        exacts [hsub h, hdid h, hjti h]
      show Prog.Meets _ (put_active_refresh c.sub c.did jti cfg.refresh_ttl_sec >>= _) _ _
      rw [put_active_refresh, if_neg hput]
      exact meets_op_bind.2 ⟨⟨List.mem_cons_self, rfl, .inr ⟨c, rfl, rfl, rfl⟩⟩, fun _ _ ↦ rfl⟩

/-- An answer fits the phase in which it is given. -/
def AuthCall.Answers (cfg : JwtConfig) (t : AuthCall) (rsp : Except ServiceError AuthRsp) : Prop :=
  t.allowed cfg (respond rsp) ∧ t.phase.flying = none

theorem AuthCall.flying_respond {ph : AuthPhase} {rsp : Except ServiceError AuthRsp}
    (h : ph.flying = none) : (nextPhase ph (respond rsp) ()).flying = none := by
  cases rsp with
  | error e => exact h
  | ok rsp =>
    cases ph with
    | spent c => rfl
    | clocked c now => rfl
    | _ => exact h

theorem AuthCall.answers_wiped {t : AuthCall} {c : TokenClaims} {message : String}
    (h : t.phase = .wiped c) :
    t.Answers cfg (.error ⟨error.kAuthRefreshTokenReused, message⟩) := by
  refine ⟨.inl ⟨rfl, c, h⟩, ?_⟩
  rw [h]
  rfl

theorem exchange_meets {req : AuthReq} {c : TokenClaims} (hsub : c.sub ≠ "") (hdid : c.did ≠ "")
    (hold : c.jti ≠ "") :
    (exchange cfg c).Meets (authContract cfg) ⟨req, .matched c, []⟩ (AuthCall.Answers cfg) := by
  refine meets_op_bind.2 ⟨⟨hsub, hdid⟩, fun access _ ↦ meets_op_bind.2 ⟨⟨hsub, hdid⟩, ?_⟩⟩
  rintro ⟨jti, text⟩ hjti
  refine (JwtStore.rotate_meets hsub hdid hjti).bind fun t r ht ↦ ?_
  cases r with
  | kReuseDetected =>
    refine (reject_reused_meets ht _).mono fun t' rsp h ↦ ?_
    rw [h.2]
    exact AuthCall.answers_wiped h.1
  | kOk =>
    obtain ⟨req, phase, held⟩ := t
    obtain rfl : phase = .rotated c := ht
    refine meets_op_bind.2 ⟨trivial, fun now _ ↦ ?_⟩
    show Prog.Meets (authContract cfg) (JwtStore.revoke c.jti (c.exp_sec - now) >>= _)
      ⟨req, .clocked c now, held⟩ _
    unfold JwtStore.revoke
    split
    · next hskip =>
      have hexp : c.exp_sec ≤ now := by
        rcases hskip with h | h
        · exact absurd h hold
        · omega
      exact ⟨.inr (.inr (.inr ⟨c, now, rfl, hexp⟩)), rfl⟩
    · refine meets_op_bind.2 ⟨.inr (.inr ⟨c, now, rfl, rfl, rfl⟩), fun _ _ ↦ ?_⟩
      exact ⟨.inr (.inr (.inl ⟨c, rfl⟩)), rfl⟩

/-- A call that has come no further than an answer without effect. -/
theorem AuthCall.answers_error {t : AuthCall} {e : ServiceError}
    (hcode : e.code ≠ error.kAuthRefreshTokenReused)
    (hphase : (∃ req, t.req = .login req) ∨ t.phase = .failed ∨ ∃ c, t.phase = .blacklisted c)
    (hflying : t.phase.flying = none) : t.Answers cfg (.error e) :=
  ⟨.inr ⟨hcode, hphase⟩, hflying⟩

theorem refresh_body_meets (token : String) :
    (refresh_body cfg token).Meets (authContract cfg) ⟨.refresh token, .start, []⟩
      (AuthCall.Answers cfg) := by
  refine meets_op_bind.2 ⟨⟨rfl, rfl, rfl⟩, fun r hr ↦ ?_⟩
  cases r with
  | error e =>
    cases e with
    | service e => exact AuthCall.answers_error hr (.inr (.inl rfl)) rfl
    | other => exact AuthCall.answers_error (by decide) (.inr (.inl rfl)) rfl
  | ok c =>
    obtain ⟨hsub, hdid, hjti⟩ := hr
    show Prog.Meets (authContract cfg) (JwtStore.is_revoked c.jti >>= _)
      ⟨.refresh token, .verified c, []⟩ _
    rw [JwtStore.is_revoked, if_neg hjti]
    refine meets_op_bind.2 ⟨⟨c, rfl, rfl⟩, fun r hr ↦ ?_⟩
    cases r with
    | thrown => exact absurd rfl hr
    | ok there =>
      cases there with
      | true => exact AuthCall.answers_error (by decide) (.inr (.inr ⟨c, rfl⟩)) rfl
      | false =>
        refine meets_op_bind.2 ⟨.inr ⟨c, rfl, rfl, rfl⟩, fun r hr ↦ ?_⟩
        cases r with
        | thrown => exact absurd rfl hr
        | ok v =>
          show Prog.Meets (authContract cfg) (if v.getD "" ≠ c.jti then _ else _)
            ⟨.refresh token, if v.getD "" = c.jti then .matched c else .reused c, []⟩ _
          by_cases hv : v.getD "" = c.jti
          · rw [if_neg (not_not.2 hv), if_pos hv]
            exact exchange_meets hsub hdid hjti
          · rw [if_pos hv, if_neg hv]
            refine (reject_reused_meets rfl _).mono fun t' rsp h ↦ ?_
            rw [h.2]
            exact AuthCall.answers_wiped h.1

/-- `RefreshToken` keeps to the contract. -/
theorem RefreshToken_meets (token : String) :
    (RefreshToken cfg token).Meets (authContract cfg) ⟨.refresh token, .start, []⟩
      fun t _ ↦ t.phase.flying = none := by
  refine (refresh_body_meets token).bind fun t rsp h ↦ ⟨h.1, fun _ _ ↦ ?_⟩
  exact AuthCall.flying_respond h.2

theorem login_user_meets {req : LoginReq} {user_id nickname device_id : String}
    (huid : user_id ≠ "") (hdid : device_id ≠ "") :
    (login_user cfg user_id nickname device_id).Meets (authContract cfg) ⟨.login req, .start, []⟩
      fun t _ ↦ t.req = .login req ∧ t.phase = .start := by
  refine meets_op_bind.2 ⟨⟨huid, hdid⟩, fun access _ ↦ meets_op_bind.2 ⟨⟨huid, hdid⟩, ?_⟩⟩
  rintro ⟨jti, text⟩ hjti
  have hput : ¬ (user_id = "" ∨ device_id = "" ∨ jti = "") := by
    rintro (h | h | h)
    exacts [huid h, hdid h, hjti h]
  show Prog.Meets (authContract cfg)
    (JwtStore.put_active_refresh user_id device_id jti cfg.refresh_ttl_sec >>= _)
    ⟨.login req, .start, [jti]⟩ _
  rw [JwtStore.put_active_refresh, if_neg hput]
  exact meets_op_bind.2 ⟨⟨List.mem_cons_self, rfl, .inl ⟨req, rfl⟩⟩, fun _ _ ↦ ⟨rfl, rfl⟩⟩

/-- What `Login` does keeps to the contract. -/
theorem login_body_meets (req : LoginReq) :
    (login_body cfg req).Meets (authContract cfg) ⟨.login req, .start, []⟩
      (AuthCall.Answers cfg) := by
  have herror {e : ServiceError} (hcode : e.code ≠ error.kAuthRefreshTokenReused) :
      AuthCall.Answers cfg ⟨.login req, .start, []⟩ (.error e) :=
    AuthCall.answers_error hcode (.inl ⟨req, rfl⟩) rfl
  unfold login_body
  split
  · exact herror (by decide)
  · exact herror (by decide)
  · refine meets_op_bind.2 ⟨trivial, fun r hr ↦ ?_⟩
    cases r with
    | none => exact herror (by decide)
    | some user =>
      have hdid : (if req.device_id = "" then "unknown_device" else req.device_id) ≠ "" := by
        split
        · decide
        · assumption
      refine (login_user_meets hr hdid).bind fun t rsp h ↦ ⟨.inl ⟨req, h.1⟩, ?_⟩
      rw [h.2]
      rfl

/-- `Login` keeps to the contract. -/
theorem Login_meets (req : LoginReq) :
    (Login cfg req).Meets (authContract cfg) ⟨.login req, .start, []⟩
      fun t _ ↦ t.phase.flying = none :=
  (login_body_meets req).bind fun _ _ h ↦ ⟨h.1, fun _ _ ↦ AuthCall.flying_respond h.2⟩

/-- What `Logout` does leaves the refresh key of its device empty. -/
theorem logout_body_meets (ctx : AuthContext) :
    (logout_body cfg ctx).Meets (authContract cfg) ⟨.logout ctx, .start, []⟩
      fun t _ ↦ t.phase = .left := by
  refine (JwtStore.revoke_meets (.inl ⟨ctx, rfl, .inl rfl⟩) fun _ _ h ↦
    AuthPhase.noConfusion h).bind fun t _ ht ↦ ?_
  rw [ht]
  refine meets_op_bind.2 ⟨.inl ⟨⟨ctx, rfl, rfl, rfl⟩, rfl⟩, fun r hr ↦ ?_⟩
  cases r with
  | thrown => exact absurd rfl hr
  | ok v =>
    show Prog.Meets (authContract cfg) (if v.getD "" ≠ "" then _ else _)
      ⟨.logout ctx, if v.getD "" = "" then .left else .leaving, []⟩ _
    by_cases hv : v.getD "" = ""
    · rw [if_neg (not_not.2 hv), if_pos hv]
      exact rfl
    · rw [if_pos hv, if_neg hv]
      refine (JwtStore.revoke_meets (.inl ⟨ctx, rfl, .inr rfl⟩) fun _ _ h ↦
        AuthPhase.noConfusion h).bind fun t _ ht ↦ ?_
      rw [ht]
      exact meets_op_bind.2 ⟨.inl ⟨⟨ctx, rfl, rfl, rfl⟩, rfl⟩, fun _ _ ↦ rfl⟩

/-- `Logout` keeps to the contract. -/
theorem Logout_meets (ctx : AuthContext) :
    (Logout cfg ctx).Meets (authContract cfg) ⟨.logout ctx, .start, []⟩
      fun t _ ↦ t.phase.flying = none := by
  refine (logout_body_meets ctx).bind fun t _ h ↦ ⟨.inr (.inl h), fun _ _ ↦ ?_⟩
  have hflying : t.phase.flying = none := by
    rw [h]
    rfl
  show (AuthCall.nextPhase t.phase (respond (.ok .empty)) ()).flying = none
  exact AuthCall.flying_respond hflying

end Meets

end ChatNow
