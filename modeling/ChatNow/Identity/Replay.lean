import ChatNow.Identity.SessionEnd

/-!
# A replayed refresh token

What becomes of a request that presents a refresh token which has been exchanged before. The chain
mark and the refresh key of the device would both give it away, but the blacklist is asked first,
and the exchange has put the token there for as long as it is valid: the request is refused as one
with a revoked token, and the newer tokens of the device stay as they are. Only when the token is no
longer on the blacklist — it expires between the two checks — is the replay noticed and the refresh
key deleted (`replay_revokes_family`).
-/

namespace ChatNow

open Prog AuthOp

/-- Nothing is recorded of the call. -/
def AuthOp.quiet : AuthOp → Bool
  | verify _ _ => false
  | getRevoked _ => false
  | respond _ => false
  | _ => true

/-- The blacklist check has been passed. -/
def AuthPhase.passed : AuthPhase → Bool
  | unrevoked _ => true
  | reused _ => true
  | wiped _ => true
  | ph => ph.past.isSome

/-- The blacklist keeps the token as long as it is valid. -/
def AuthState.Barred (s : AuthState) (c : TokenClaims) : Prop :=
  c.exp_sec ≤ s.now ∨ ∃ e, s.revoked c.jti = some ((), e) ∧ c.exp_sec ≤ e

/-- Tokens that have been exchanged are barred, and a `Logout` is made with an access token. -/
structure Exchanged (ts : List AuthCall) (s : AuthState) : Prop where
  barred : ∀ (k : ℕ) t c, ts[k]? = some t → t.phase = .spent c ∨ t.phase = .won c → s.Barred c
  admits : ∀ (k : ℕ) t ctx, ts[k]? = some t → t.req = .logout ctx → s.Admits ctx

/-- What is recorded of threads is recorded of threads that are there. -/
structure Recorded (ts : List AuthCall) (s : AuthState) : Prop where
  unmarked : ∀ x ∈ s.unmarked, x.1 < ts.length
  accepted : ∀ i ∈ s.accepted, i < ts.length
  answers : ∀ x ∈ s.answers, x.1 < ts.length

/-- The call has come to its end without success: the token has been found to be used before, or it
has been refused for another reason. -/
def AuthCall.Refused (t : AuthCall) (rsp : Except ServiceError AuthRsp) : Prop :=
  (∃ e, rsp = .error e ∧ e.code = error.kAuthRefreshTokenReused) ∧ (∃ d, t.phase = .wiped d) ∨
    (¬ ∃ e, rsp = .error e ∧ e.code = error.kAuthRefreshTokenReused) ∧
      (t.phase = .failed ∨ ∃ d, t.phase = .blacklisted d)

/-- A call by thread `i` with a token that has been exchanged before. -/
structure ReplayCall (i : ℕ) (s : AuthState) (c : TokenClaims) (t : AuthCall) : Prop where
  past : t.phase.past = none
  unmarked : t.phase.passed = true → ∃ n, (i, n) ∈ s.unmarked
  marked : ∀ n, (i, n) ∈ s.unmarked → t.phase.passed = true ∧ c.exp_sec ≤ n
  left : ∀ d, t.phase = .wiped d → (i, d.rt_key) ∈ s.left
  accepted : i ∈ s.accepted → t.phase.claims ≠ none
  answered : ∀ rsp, (i, rsp) ∈ s.answers → t.Refused rsp

/-- Nothing more is recorded of thread `i`. -/
structure AuthState.Agrees (i : ℕ) (s s' : AuthState) : Prop where
  unmarked : ∀ n, (i, n) ∈ s'.unmarked ↔ (i, n) ∈ s.unmarked
  accepted : i ∈ s'.accepted ↔ i ∈ s.accepted
  answers : ∀ rsp, (i, rsp) ∈ s'.answers ↔ (i, rsp) ∈ s.answers

/-- Thread `i` presents a token that has been exchanged, if it presents the given one. -/
structure Replays (i : ℕ) (token : String) (c : TokenClaims) (ts : List AuthCall)
    (s : AuthState) : Prop where
  exchanged : Exchanged ts s
  recorded : Recorded ts s
  empty : s.LeftEmpty i
  winner : ∃ (j : ℕ) (u : AuthCall), ts[j]? = some u ∧ u.phase = .won c
  call : ∀ t, ts[i]? = some t → t.req = .refresh token → ReplayCall i s c t

theorem ReplayCall.keep {i : ℕ} {s s' : AuthState} {c : TokenClaims} {t t' : AuthCall}
    (h : ReplayCall i s c t) (ha : s.Agrees i s') (hleft : ∀ x ∈ s.left, x ∈ s'.left)
    (hphase : t'.phase = t.phase) : ReplayCall i s' c t' where
  past := hphase ▸ h.past
  unmarked hp := by
    obtain ⟨n, hn⟩ := h.unmarked (hphase ▸ hp)
    exact ⟨n, (ha.unmarked n).2 hn⟩
  marked n hn := hphase ▸ h.marked n ((ha.unmarked n).1 hn)
  left d hd := hleft _ (h.left d (hphase ▸ hd))
  accepted hacc := hphase ▸ h.accepted (ha.accepted.1 hacc)
  answered rsp hrsp := by
    have hrefused := h.answered rsp ((ha.answers rsp).1 hrsp)
    rw [AuthCall.Refused] at hrefused ⊢
    rw [hphase]
    exact hrefused

section Steps

variable {cfg : JwtConfig} {lib : JwtLib} {ts : List AuthCall} {s s' : AuthState} {i k : ℕ}
  {t t' : AuthCall} {c : AuthChoice}

/-- Whatever is put on the blacklist for an id covers a refresh token with the id. -/
theorem setRevoked_covers {jti : String} {ttl_sec : ℤ} {d : TokenClaims}
    (hinv : AuthInv cfg lib ts s) (h : Exchanged ts s) (hk : ts[k]? = some t)
    (ha : t.allowed cfg (setRevoked jti ttl_sec)) (hd : s.tokens.find d.jti = some d)
    (hrefresh : d.is_refresh = true) (hjti : d.jti = jti) : d.exp_sec ≤ s.now + ttl_sec := by
  have hlong : d.exp_sec ≤ s.now + cfg.refresh_ttl_sec :=
    (hinv.signed _ _ hd).expires hrefresh
  rcases ha with ⟨ctx, hreq, rfl | rfl⟩ | ⟨e, -, rfl⟩ | ⟨e, now, hphase, rfl, rfl⟩
  · -- the token of a `Logout` is an access token
    obtain ⟨a, hfind, haccess, -⟩ := h.admits k t ctx hk hreq
    rw [← hjti, hd] at hfind
    obtain rfl := Option.some.inj hfind
    rw [hrefresh] at haccess
    cases haccess
  · exact hlong
  · exact hlong
  · have hknows := hinv.knows k t hk
    have hissued := (hknows.shows (c := e) (by rw [hphase]; rfl)).issued
    rw [← hjti, hd] at hissued
    obtain rfl := Option.some.inj hissued
    have hnow : now ≤ s.now := by
      rw [AuthCall.Knows, hphase] at hknows
      exact hknows.2.2
    omega

/-- What is on the blacklist for an exchanged token stays there long enough. -/
theorem barred_call {o : AuthOp} {r : o.Res} {d : TokenClaims} (h : Exchanged ts s)
    (hinv : AuthInv cfg lib ts s) (hk : ts[k]? = some t) (ha : t.allowed cfg o)
    (hc : c.fault = false) (hx : s.exec cfg lib k o c = some (r, s'))
    (hd : s.tokens.find d.jti = some d) (hrefresh : d.is_refresh = true) (hbar : s.Barred d) :
    s'.Barred d := by
  have heffect := AuthState.effect_exec hx
  rcases hbar with hexp | ⟨e, hkey, hexp⟩
  · refine .inl ?_
    rw [heffect.now]
    exact hexp
  refine .inr ?_
  rcases heffect.revoked with hsame | ⟨jti, ttl_sec, rfl⟩
  · rw [hsame]
    exact ⟨e, hkey, hexp⟩
  · obtain ⟨-, rfl⟩ := Prod.mk.inj (Option.some.inj hx)
    rw [if_pos (c.acts_of_answered hc)]
    rcases eq_or_ne d.jti jti with hjti | hne
    · refine ⟨s.now + ttl_sec, ?_, setRevoked_covers hinv h hk ha hd hrefresh hjti⟩
      rw [hjti]
      exact Expiring.setEx_self ..
    · refine ⟨e, ?_, hexp⟩
      rw [← hkey]
      exact Expiring.setEx_ne _ _ _ _ hne

theorem exchanged_call {o : AuthOp} {r : o.Res} (h : Exchanged ts s)
    (hinv : AuthInv cfg lib ts s) (hk : ts[k]? = some t) (ha : t.allowed cfg o)
    (hc : c.fault = false) (hx : s.exec cfg lib k o c = some (r, s')) :
    Exchanged (ts.set k ((authContract cfg).next t o r)) s' := by
  have heffect := AuthState.effect_exec hx
  constructor
  · intro j u d hu hd
    have hold (w : AuthCall) (hw : ts[j]? = some w)
        (hd' : w.phase = .spent d ∨ w.phase = .won d) : s'.Barred d := by
      have hclaims : w.phase.claims = some d := by
        rcases hd' with hd' | hd' <;> rw [hd'] <;> rfl
      have hshows := (hinv.knows j w hw).shows hclaims
      exact barred_call h hinv hk ha hc hx hshows.issued hshows.is_refresh (h.barred j w d hw hd')
    rcases Pool.getElem?_set_cases hu with ⟨rfl, rfl⟩ | ⟨-, hu'⟩
    swap
    · exact hold u hu' hd
    rcases AuthCall.settled_nextPhase hd with hd' | ⟨now, hphase, hop⟩
    · exact hold t hk hd'
    -- the token is put on the blacklist now, or it has expired
    have hknows := hinv.knows j t hk
    have hshows := hknows.shows (c := d) (by rw [hphase]; rfl)
    have hnow : now ≤ s.now := by
      rw [AuthCall.Knows, hphase] at hknows
      exact hknows.2.2
    have hrefresh : ∀ ctx, t.req ≠ .logout ctx := by
      intro ctx hctx
      obtain ⟨token, htoken, -⟩ := hshows.token
      rw [hctx] at htoken
      cases htoken
    rcases hop with ⟨jti, ttl_sec, rfl⟩ | ⟨rsp, rfl⟩
    · obtain ⟨-, rfl⟩ := Prod.mk.inj (Option.some.inj hx)
      rw [if_pos (c.acts_of_answered hc)]
      have hjti : d.jti = jti := by
        rcases ha with ⟨ctx, hctx, -⟩ | ⟨e, he, -⟩ | ⟨e, n, he, rfl, -⟩
        · exact absurd hctx (hrefresh ctx)
        · rw [hphase] at he
          cases he
        · rw [hphase] at he
          obtain ⟨rfl, -⟩ := AuthPhase.clocked.inj he
          rfl
      refine .inr ⟨s.now + ttl_sec, ?_,
        setRevoked_covers hinv h hk ha hshows.issued hshows.is_refresh hjti⟩
      rw [hjti]
      exact Expiring.setEx_self ..
    · refine .inl ?_
      rw [heffect.now]
      rcases ha with ⟨req, hlogin⟩ | hleft | ⟨e, he⟩ | ⟨e, n, he, hexp⟩
      · obtain ⟨token, htoken, -⟩ := hshows.token
        rw [hlogin] at htoken
        cases htoken
      · rw [hphase] at hleft
        cases hleft
      · rw [hphase] at he
        cases he
      · rw [hphase] at he
        obtain ⟨rfl, rfl⟩ := AuthPhase.clocked.inj he
        exact hexp.trans hnow
  · intro j u ctx hu hreq
    have hadmits : s.Admits ctx := by
      rcases Pool.getElem?_set_cases hu with ⟨rfl, rfl⟩ | ⟨-, hu'⟩
      · exact h.admits j t ctx hk hreq
      · exact h.admits j u ctx hu' hreq
    obtain ⟨a, ha', hrest⟩ := hadmits
    exact ⟨a, heffect.tokens _ _ ha', hrest⟩

theorem recorded_call {o : AuthOp} {r : o.Res} (h : Recorded ts s) (hk : ts[k]? = some t)
    (hx : s.exec cfg lib k o c = some (r, s')) : Recorded (ts.set k t') s' := by
  have heffect := AuthState.effect_exec hx
  have hlt : k < ts.length := (List.getElem?_eq_some_iff.1 hk).1
  constructor
  · intro x hx'
    rw [List.length_set]
    rcases heffect.unmarked with hsame | ⟨-, hnew⟩
    · exact h.unmarked x (hsame ▸ hx')
    · rw [hnew] at hx'
      rcases List.mem_cons.1 hx' with rfl | hx'
      · exact hlt
      · exact h.unmarked x hx'
  · intro j hj
    rw [List.length_set]
    rcases heffect.accepted with hsame | ⟨-, hnew⟩
    · exact h.accepted j (hsame ▸ hj)
    · rw [hnew] at hj
      rcases List.mem_cons.1 hj with rfl | hj
      · exact hlt
      · exact h.accepted j hj
  · intro x hx'
    rw [List.length_set]
    rcases heffect.answers with hsame | ⟨rsp, -, hnew⟩
    · exact h.answers x (hsame ▸ hx')
    · rw [hnew] at hx'
      rcases List.mem_cons.1 hx' with rfl | hx'
      · exact hlt
      · exact h.answers x hx'

theorem agrees_of_ne {o : AuthOp} (he : AuthState.Effect k o s s') (hne : k ≠ i) :
    s.Agrees i s' := by
  constructor
  · intro n
    rcases he.unmarked with hsame | ⟨-, hnew⟩
    · rw [hsame]
    · rw [hnew, List.mem_cons, Prod.mk.injEq]
      exact or_iff_right fun h ↦ hne h.1.symm
  · rcases he.accepted with hsame | ⟨-, hnew⟩
    · rw [hsame]
    · rw [hnew, List.mem_cons]
      exact or_iff_right fun h ↦ hne h.symm
  · intro rsp
    rcases he.answers with hsame | ⟨rsp', -, hnew⟩
    · rw [hsame]
    · rw [hnew, List.mem_cons, Prod.mk.injEq]
      exact or_iff_right fun h ↦ hne h.1.symm

theorem agrees_of_quiet {o : AuthOp} (he : AuthState.Effect k o s s') (hq : o.quiet = true) :
    s.Agrees i s' := by
  constructor
  · intro n
    rcases he.unmarked with hsame | ⟨⟨jti, rfl⟩, -⟩
    · rw [hsame]
    · cases hq
  · rcases he.accepted with hsame | ⟨⟨token, b, rfl⟩, -⟩
    · rw [hsame]
    · cases hq
  · intro rsp
    rcases he.answers with hsame | ⟨rsp', rfl, -⟩
    · rw [hsame]
    · cases hq

/-- A phase in which the call has come to no end, so that it has not answered. -/
theorem ReplayCall.unanswered {d : TokenClaims} (h : ReplayCall i s d t)
    (hphase : t.phase = .start ∨ (∃ e, t.phase = .verified e) ∨ (∃ e, t.phase = .unrevoked e) ∨
      ∃ e, t.phase = .reused e) (rsp : Except ServiceError AuthRsp) : (i, rsp) ∉ s.answers := by
  intro hrsp
  rcases h.answered rsp hrsp with ⟨-, e, he⟩ | ⟨-, he | ⟨e, he⟩⟩ <;>
  · rw [he] at hphase
    rcases hphase with h | ⟨_, h⟩ | ⟨_, h⟩ | ⟨_, h⟩ <;> cases h

/-- Nor has it come past the blacklist. -/
theorem ReplayCall.unchecked {d : TokenClaims} (h : ReplayCall i s d t)
    (hphase : t.phase.passed = false) (n : ℤ) : (i, n) ∉ s.unmarked := by
  intro hn
  rw [(h.marked n hn).1] at hphase
  cases hphase

/-- The signature is checked. -/
theorem replayCall_verify {d : TokenClaims} {token : String} {b : Bool}
    {r : Except JwtThrown TokenClaims} (h : ReplayCall i s d t)
    (ha : t.allowed cfg (verify token b))
    (hx : s.exec cfg lib i (verify token b) c = some (r, s')) :
    ReplayCall i s' d ((authContract cfg).next t (verify token b) r) := by
  obtain ⟨-, -, hstart⟩ := ha
  have hans := h.unanswered (.inl hstart)
  have hunchecked := h.unchecked (by rw [hstart]; rfl)
  simp only [AuthState.exec] at hx
  split at hx
  · obtain ⟨rfl, rfl⟩ := Prod.mk.inj (Option.some.inj hx)
    refine ⟨rfl, fun hp ↦ ?_, fun n hn ↦ absurd hn (hunchecked n), fun e he ↦ ?_, fun hacc ↦ ?_,
      fun rsp hrsp ↦ absurd hrsp (hans rsp)⟩
    · cases hp
    · cases he
    · have hnone := h.accepted hacc
      rw [hstart] at hnone
      exact absurd rfl hnone
  · split at hx
    · obtain ⟨rfl, rfl⟩ := Prod.mk.inj (Option.some.inj hx)
      refine ⟨rfl, fun hp ↦ ?_, fun n hn ↦ absurd hn (hunchecked n), fun e he ↦ ?_,
        fun _ ↦ Option.some_ne_none _, fun rsp hrsp ↦ absurd hrsp (hans rsp)⟩
      · cases hp
      · cases he
    · cases hx

/-- The blacklist is asked: it does not know the token only when this has expired. -/
theorem replayCall_getRevoked {d : TokenClaims} {jti : String} {r : Reply Bool}
    (h : ReplayCall i s d t) (hbarred : s.Barred d) (hphase : t.phase = .verified d)
    (hjti : jti = d.jti) (hc : c.fault = false)
    (hx : s.exec cfg lib i (getRevoked jti) c = some (r, s')) :
    ReplayCall i s' d ((authContract cfg).next t (getRevoked jti) r) := by
  have hans := h.unanswered (.inr (.inl ⟨d, hphase⟩))
  have hunchecked := h.unchecked (by rw [hphase]; rfl)
  obtain ⟨hr, rfl⟩ := Prod.mk.inj (Option.some.inj hx)
  rw [c.reply_of_answered hc] at hr
  obtain rfl := hr.symm
  subst hjti
  obtain ⟨req, phase, held⟩ := t
  obtain rfl : phase = .verified d := hphase
  cases hthere : (s.revoked.get s.now d.jti).isSome with
  | true =>
    refine ⟨rfl, fun hp ↦ ?_, fun n hn ↦ absurd hn (hunchecked n), fun e he ↦ ?_,
      fun _ ↦ Option.some_ne_none _, fun rsp hrsp ↦ absurd hrsp (hans rsp)⟩
    · cases hp
    · cases he
  | false =>
    rw [hc]
    have hexp : d.exp_sec ≤ s.now := by
      rcases hbarred with hexp | ⟨e, hkey, hexp⟩
      · exact hexp
      · refine hexp.trans (Int.not_lt.1 fun hlt ↦ ?_)
        rw [Expiring.get_of_lt hkey hlt] at hthere
        cases hthere
    refine ⟨rfl, fun _ ↦ ⟨s.now, List.mem_cons_self⟩, fun n hn ↦ ⟨rfl, ?_⟩, fun e he ↦ ?_,
      fun _ ↦ Option.some_ne_none _, fun rsp hrsp ↦ absurd hrsp (hans rsp)⟩
    · rcases List.mem_cons.1 hn with heq | hn
      · obtain ⟨-, rfl⟩ := Prod.mk.inj heq
        exact hexp
      · exact absurd hn (hunchecked n)
    · cases he

/-- The refresh key is looked at: the token is not there any more. -/
theorem replayCall_getActive {d : TokenClaims} {uid did : String} {r : Reply (Option String)}
    (h : ReplayCall i s d t) (hrep : s.Replaced d) (hjti : d.jti ≠ "")
    (hphase : t.phase = .unrevoked d) (huid : uid = d.sub) (hdid : did = d.did)
    (hc : c.fault = false) (hx : s.exec cfg lib i (getActive uid did) c = some (r, s')) :
    ReplayCall i s' d ((authContract cfg).next t (getActive uid did) r) := by
  have hagrees : s.Agrees i s' := agrees_of_quiet (AuthState.effect_exec hx) rfl
  have hans := h.unanswered (.inr (.inr (.inl ⟨d, hphase⟩)))
  have hunmarked := h.unmarked (by rw [hphase]; rfl)
  obtain ⟨hr, -⟩ := Prod.mk.inj (Option.some.inj hx)
  rw [c.reply_of_answered hc, huid, hdid] at hr
  obtain rfl := hr.symm
  have hv : (s.active.get s.now d.rt_key).getD "" ≠ d.jti := by
    intro hv
    cases hget : s.active.get s.now d.rt_key with
    | none =>
      rw [hget] at hv
      exact hjti hv.symm
    | some v =>
      rw [hget] at hv
      obtain ⟨e, hkey, -⟩ := s.active.get_eq_some.1 hget
      rw [show v = d.jti from hv] at hkey
      exact hrep.gone e hkey
  have hnext : AuthCall.nextPhase t.phase (getActive uid did)
      (.ok (s.active.get s.now d.rt_key)) = .reused d := by
    rw [hphase]
    exact if_neg hv
  have hkept : ReplayCall i s d { t with phase := .reused d } := by
    refine ⟨rfl, fun _ ↦ hunmarked, fun n hn ↦ ⟨rfl, (h.marked n hn).2⟩, fun e he ↦ ?_,
      fun _ ↦ Option.some_ne_none _, fun rsp hrsp ↦ absurd hrsp (hans rsp)⟩
    cases he
  exact hkept.keep hagrees (fun x hx' ↦ left_mono hx hx') hnext

/-- **Every call of the thread that presents the token.** -/
theorem replayCall_self {d : TokenClaims} {o : AuthOp} {r : o.Res} (h : ReplayCall i s d t)
    (hex : Exchanged ts s) (hinv : AuthInv cfg lib ts s) (hi : ts[i]? = some t)
    (hwinner : ∃ (j : ℕ) (u : AuthCall), ts[j]? = some u ∧ u.phase = .won d)
    {token : String} (hreq : t.req = .refresh token) (hreads : lib.reads token = some d.toJwtClaims)
    (ha : t.allowed cfg o) (hc : c.fault = false) (hx : s.exec cfg lib i o c = some (r, s')) :
    ReplayCall i s' d ((authContract cfg).next t o r) := by
  have heffect := AuthState.effect_exec hx
  obtain ⟨j, u, hu, hwon⟩ := hwinner
  have hclaims : u.phase.claims = some d := by
    rw [hwon]
    rfl
  have hlogin : ∀ req, t.req ≠ .login req := fun req heq ↦ by
    rw [hreq] at heq
    cases heq
  have hlogout : ∀ ctx, t.req ≠ .logout ctx := fun ctx heq ↦ by
    rw [hreq] at heq
    cases heq
  -- whatever token it holds is the one that has been exchanged
  have heq {e : TokenClaims} (he : t.phase.claims = some e) : e = d := by
    refine hinv.claims_eq hi hu he hclaims ?_
    obtain ⟨token', htoken, hreads'⟩ := ((hinv.knows i t hi).shows he).token
    rw [hreq] at htoken
    obtain rfl := AuthReq.refresh.inj htoken
    rw [hreads] at hreads'
    rw [← Option.some.inj hreads']
  have hstay (hphase : AuthCall.nextPhase t.phase o r = t.phase) (hq : o.quiet = true) :
      ReplayCall i s' d ((authContract cfg).next t o r) :=
    h.keep (agrees_of_quiet heffect hq) (fun x hx' ↦ left_mono hx hx') hphase
  have hpast := h.past
  cases o with
  | clock =>
    rcases AuthCall.nextPhase_clock t.phase r with ⟨e, he, -⟩ | hsame
    · rw [he] at hpast
      cases hpast
    · exact hstay hsame rfl
  | verify token b => exact replayCall_verify h ha hx
  | issue uid did b => exact hstay rfl rfl
  | credentials username password => exact hstay rfl rfl
  | setRevoked jti ttl_sec =>
    rcases AuthCall.nextPhase_setRevoked t.phase jti ttl_sec r with ⟨e, now, he, -⟩ | hsame
    · rw [he] at hpast
      cases hpast
    · exact hstay hsame rfl
  | getRevoked jti =>
    obtain ⟨e, he, hjti⟩ := ha
    obtain rfl := heq (e := e) (by rw [he]; rfl)
    exact replayCall_getRevoked h (hex.barred j u e hu (.inr hwon)) he hjti hc hx
  | setActive uid did jti ttl_sec =>
    rcases ha with ⟨-, -, ⟨req, hlog⟩ | ⟨e, he, -⟩⟩
    · exact absurd hlog (hlogin req)
    · rw [he] at hpast
      cases hpast
  | getActive uid did =>
    rcases ha with ⟨⟨ctx, hctx, -⟩, -⟩ | ⟨e, he, huid, hdid⟩
    · exact absurd hctx (hlogout ctx)
    · obtain rfl := heq (e := e) (by rw [he]; rfl)
      have hissued := ((hinv.knows j u hu).shows hclaims).issued
      have hrep := (hinv.knows j u hu).replaced (c := e) (by rw [hwon]; rfl)
      exact replayCall_getActive h hrep (hinv.signed _ _ hissued).named.2.2 he huid hdid hc hx
  | delActive uid did =>
    rcases ha with ⟨⟨ctx, hctx, -⟩, -⟩ | ⟨e, he, rfl, rfl⟩
    · exact absurd hctx (hlogout ctx)
    · obtain ⟨-, rfl⟩ := Prod.mk.inj (Option.some.inj hx)
      rw [if_pos (c.acts_of_answered hc)]
      have hans := h.unanswered (.inr (.inr (.inr ⟨e, he⟩)))
      obtain ⟨req, phase, held⟩ := t
      obtain rfl : phase = .reused e := he
      refine ⟨rfl, fun _ ↦ h.unmarked rfl, fun n hn ↦ ⟨rfl, (h.marked n hn).2⟩, fun f hf ↦ ?_,
        fun _ ↦ Option.some_ne_none _, fun rsp hrsp ↦ absurd hrsp (hans rsp)⟩
      obtain rfl := AuthPhase.wiped.inj hf
      exact List.mem_cons_self
  | setChain jti ttl_sec =>
    obtain ⟨e, he, -⟩ := ha
    rw [he] at hpast
    cases hpast
  | respond rsp =>
    obtain ⟨-, rfl⟩ := Prod.mk.inj (Option.some.inj hx)
    cases rsp with
    | ok rsp =>
      rcases ha with ⟨req, hlog⟩ | hleft | ⟨e, he⟩ | ⟨e, now, he, -⟩
      · exact absurd hlog (hlogin req)
      · have hknows := hinv.knows i t hi
        rw [AuthCall.Knows, hleft] at hknows
        obtain ⟨ctx, hctx⟩ := hknows
        exact absurd hctx (hlogout ctx)
      · rw [he] at hpast
        cases hpast
      · rw [he] at hpast
        cases hpast
    | error e =>
      refine ⟨h.past, h.unmarked, h.marked, h.left, h.accepted, fun rsp hrsp ↦ ?_⟩
      rcases List.mem_cons.1 hrsp with hnew | hold
      · obtain ⟨-, rfl⟩ := Prod.mk.inj hnew
        rcases ha with ⟨hcode, f, hf⟩ | ⟨hcode, ⟨req, hlog⟩ | hend⟩
        · exact .inl ⟨⟨e, rfl, hcode⟩, f, hf⟩
        · exact absurd hlog (hlogin req)
        · refine .inr ⟨?_, hend⟩
          rintro ⟨e', herr, hcode'⟩
          obtain rfl := Except.error.inj herr
          exact hcode hcode'
      · exact h.answered rsp hold

/-- A call that has succeeded stays so. -/
theorem won_next {d : TokenClaims} {o : AuthOp} {r : o.Res} (h : t.phase = .won d)
    (ha : t.allowed cfg o) : ((authContract cfg).next t o r).phase = .won d := by
  show AuthCall.nextPhase t.phase o r = .won d
  have hturn := AuthCall.turn_nextPhase t.phase o r
  rw [h] at hturn ⊢
  generalize AuthCall.nextPhase (.won d) o r = ph at hturn ⊢
  cases hturn with
  | stay _ _ => rfl
  | reject _ token b =>
    obtain ⟨-, -, hstart⟩ := ha
    rw [h] at hstart
    cases hstart
  | accept _ token b e =>
    obtain ⟨-, -, hstart⟩ := ha
    rw [h] at hstart
    cases hstart

/-- **Every call of a thread** keeps what is known of a replay. -/
theorem replays_call {token : String} {d : TokenClaims} {o : AuthOp} {r : o.Res}
    (h : Replays i token d ts s) (hreads : lib.reads token = some d.toJwtClaims)
    (hinv : AuthInv cfg lib ts s) (hk : ts[k]? = some t) (ha : t.allowed cfg o)
    (hG : (keyStaysEmpty i).onOp k o c s) (hx : s.exec cfg lib k o c = some (r, s')) :
    Replays i token d (ts.set k ((authContract cfg).next t o r)) s' where
  exchanged := exchanged_call h.exchanged hinv hk ha hG.1 hx
  recorded := recorded_call h.recorded hk hx
  empty := leftEmpty_call h.empty hinv hG hx
  winner := by
    obtain ⟨j, u, hu, hwon⟩ := h.winner
    rcases eq_or_ne j k with rfl | hne
    · obtain rfl := Option.some.inj (hk.symm.trans hu)
      exact ⟨j, _, Pool.getElem?_set_self hk, won_next hwon ha⟩
    · refine ⟨j, u, ?_, hwon⟩
      rw [List.getElem?_set_ne hne.symm]
      exact hu
  call u hu hreq := by
    rcases Pool.getElem?_set_cases hu with ⟨rfl, rfl⟩ | ⟨hne, hu'⟩
    · exact replayCall_self (h.call t hk hreq) h.exchanged hinv hk h.winner hreq hreads ha hG.1 hx
    · exact (h.call u hu' hreq).keep (agrees_of_ne (AuthState.effect_exec hx) hne.symm)
        (fun x hx' ↦ left_mono hx hx') rfl

theorem exchanged_event {p : AuthPool} {e : AuthEv} {ts' : List AuthCall}
    (h : Exchanged ts p.shared) (he : AuthEvent ts p.shared e ts' s') : Exchanged ts' s' := by
  cases he with
  | arrive req hreq =>
    constructor
    · intro j u d hu hd
      rcases Pool.getElem?_append_cases hu with ⟨-, rfl⟩ | ⟨-, hu'⟩
      · rcases hd with hd | hd <;> cases hd
      · exact h.barred j u d hu' hd
    · intro j u ctx hu hctx
      rcases Pool.getElem?_append_cases hu with ⟨-, rfl⟩ | ⟨-, hu'⟩
      · exact hreq ctx hctx
      · exact h.admits j u ctx hu' hctx
  | tick n =>
    refine ⟨fun j u d hu hd ↦ ?_, h.admits⟩
    rcases h.barred j u d hu hd with hexp | hkey
    · refine .inl ?_
      show d.exp_sec ≤ p.shared.now + n
      omega
    · exact .inr hkey
  | gone k => exact h
  | fail hk hflying =>
    constructor
    · intro j u d hu hd
      rcases Pool.getElem?_set_cases hu with ⟨-, rfl⟩ | ⟨-, hu'⟩
      · rcases hd with hd | hd <;> cases hd
      · exact h.barred j u d hu' hd
    · intro j u ctx hu hctx
      rcases Pool.getElem?_set_cases hu with ⟨rfl, rfl⟩ | ⟨-, hu'⟩
      · exact h.admits j _ ctx hk hctx
      · exact h.admits j u ctx hu' hctx

theorem recorded_event {p : AuthPool} {e : AuthEv} {ts' : List AuthCall}
    (h : Recorded ts p.shared) (he : AuthEvent ts p.shared e ts' s') : Recorded ts' s' := by
  have hlen {n : ℕ} (hle : ts.length ≤ n) {s'' : AuthState}
      (hunmarked : s''.unmarked = p.shared.unmarked) (haccepted : s''.accepted = p.shared.accepted)
      (hanswers : s''.answers = p.shared.answers) (hn : n = ts'.length) : Recorded ts' s'' := by
    refine ⟨fun x hx ↦ ?_, fun j hj ↦ ?_, fun x hx ↦ ?_⟩
    · have hlt := h.unmarked x (hunmarked ▸ hx)
      omega
    · have hlt := h.accepted j (haccepted ▸ hj)
      omega
    · have hlt := h.answers x (hanswers ▸ hx)
      omega
  cases he with
  | arrive req hreq =>
    exact hlen (n := ts.length + 1) (by omega) rfl rfl rfl (by rw [List.length_append]; rfl)
  | tick n => exact hlen le_rfl rfl rfl rfl rfl
  | gone k => exact h
  | fail hk hflying => exact hlen le_rfl rfl rfl rfl (List.length_set ..).symm

/-- **Every event** keeps it. -/
theorem replays_event {token : String} {d : TokenClaims} {p : AuthPool} {e : AuthEv}
    {ts' : List AuthCall} (h : Replays i token d ts p.shared)
    (he : AuthEvent ts p.shared e ts' s') : Replays i token d ts' s' := by
  have hexchanged := exchanged_event h.exchanged he
  have hrecorded := recorded_event h.recorded he
  have hempty := leftEmpty_event h.empty he
  obtain ⟨j, u, hu, hwon⟩ := h.winner
  have hagrees {s'' : AuthState} (hunmarked : s''.unmarked = p.shared.unmarked)
      (haccepted : s''.accepted = p.shared.accepted) (hanswers : s''.answers = p.shared.answers) :
      p.shared.Agrees i s'' := by
    refine ⟨fun n ↦ ?_, ?_, fun rsp ↦ ?_⟩
    · rw [hunmarked]
    · rw [haccepted]
    · rw [hanswers]
  cases he with
  | arrive req hreq =>
    refine ⟨hexchanged, hrecorded, hempty, ⟨j, u, Pool.getElem?_append_of_some hu, hwon⟩, ?_⟩
    intro t ht htoken
    rcases Pool.getElem?_append_cases ht with ⟨rfl, rfl⟩ | ⟨-, ht'⟩
    · refine ⟨rfl, fun hp ↦ ?_, fun n hn ↦ ?_, fun e he ↦ ?_, fun hacc ↦ ?_, fun rsp hrsp ↦ ?_⟩
      · cases hp
      · exact absurd (h.recorded.unmarked _ hn) (lt_irrefl _)
      · cases he
      · exact absurd (h.recorded.accepted _ hacc) (lt_irrefl _)
      · exact absurd (h.recorded.answers _ hrsp) (lt_irrefl _)
    · exact (h.call t ht' htoken).keep (hagrees rfl rfl rfl) (fun _ hx ↦ hx) rfl
  | tick n =>
    refine ⟨hexchanged, hrecorded, hempty, ⟨j, u, hu, hwon⟩, fun t ht htoken ↦ ?_⟩
    exact (h.call t ht htoken).keep (hagrees rfl rfl rfl) (fun _ hx ↦ hx) rfl
  | gone k => exact h
  | @fail k t hk hflying =>
    refine ⟨hexchanged, hrecorded, hempty, ⟨j, u, ?_, hwon⟩, fun w hw htoken ↦ ?_⟩
    · refine Pool.getElem?_set_of_ne hk hu ?_
      rintro rfl
      rw [hwon] at hflying
      exact hflying rfl
    · rcases Pool.getElem?_set_cases hw with ⟨rfl, rfl⟩ | ⟨-, hw'⟩
      · obtain ⟨e, he⟩ := Option.ne_none_iff_exists'.1 hflying
        have hpast := (h.call t hk htoken).past
        rw [AuthPhase.past_of_flying he] at hpast
        cases hpast
      · exact h.call w hw' htoken

end Steps

/-! ### Runs -/

/-- **A replayed refresh token revokes the family** exactly when the blacklist does not know it any
more, and then the token has expired since its signature was checked. -/
theorem replay_revokes_family (cfg : JwtConfig) (lib : JwtLib) (s₀ : AuthState) (hs : s₀.Fresh)
    (i : ℕ) (p₀ p : AuthPool)
    (h₀ : (identityService cfg lib).Reach (keyStaysEmpty i) ⟨[], s₀⟩ p₀)
    (h : (identityService cfg lib).Reach (keyStaysEmpty i) p₀ p) (token : String) (c : JwtClaims)
    (hreads : lib.reads token = some c) (j : ℕ) (hj : p₀.shared.Presents j token)
    (hj' : p₀.shared.Succeeds j) (hi : p₀.shared.requests.length ≤ i)
    (hi' : p.shared.Presents i token) (hvalid : i ∈ p.shared.accepted)
    (rsp : Except ServiceError AuthRsp) (hrsp : (i, rsp) ∈ p.shared.answers) :
    ((∃ e, rsp = .error e ∧ e.code = error.kAuthRefreshTokenReused) ∧
      p.shared.active.get p.shared.now (rt_key c.sub c.did) = none ↔
      ∃ n, (i, n) ∈ p.shared.unmarked) ∧
      ∀ n, (i, n) ∈ p.shared.unmarked →
        ∃ d, p.shared.tokens.find c.jti = some d ∧ d.exp_sec ≤ n := by
  have hexchanged₀ : Exchanged [] s₀ :=
    ⟨fun _ _ _ hu ↦ absurd hu (by simp), fun _ _ _ hu ↦ absurd hu (by simp)⟩
  have hrecorded₀ : Recorded [] s₀ := by
    refine ⟨fun x hx ↦ ?_, fun k hk ↦ ?_, fun x hx ↦ ?_⟩
    · rw [hs.unmarked] at hx
      exact absurd hx List.not_mem_nil
    · rw [hs.accepted] at hk
      exact absurd hk List.not_mem_nil
    · rw [hs.answers] at hx
      exact absurd hx List.not_mem_nil
  have hempty₀ : s₀.LeftEmpty i := by
    intro k hk
    rw [hs.left] at hk
    exact absurd hk List.not_mem_nil
  obtain ⟨ts₀, hinv₀, ⟨hempty, hexchanged, hrecorded⟩, hm₀⟩ := auth_invariant
    (I := fun ts s ↦ s.LeftEmpty i ∧ Exchanged ts s ∧ Recorded ts s) h₀ (fun _ _ _ _ hG ↦ hG.1)
    (authInv_fresh hs) ⟨hempty₀, hexchanged₀, hrecorded₀⟩ .nil
    (fun hinv h hk ha hG hx ↦ ⟨leftEmpty_call h.1 hinv hG hx,
      exchanged_call h.2.1 hinv hk ha hG.1 hx, recorded_call h.2.2 hk hx⟩)
    (fun _ h _ _ he ↦ ⟨leftEmpty_event h.1 he, exchanged_event h.2.1 he, recorded_event h.2.2 he⟩)
  obtain ⟨u₀, d, hu₀, hwon₀, hreads₀⟩ := hinv₀.won hj hj'
  obtain rfl : c = d.toJwtClaims := Option.some.inj (hreads.symm.trans hreads₀)
  have hstart : Replays i token d ts₀ p₀.shared := by
    refine ⟨hexchanged, hrecorded, hempty, ⟨j, u₀, hu₀, hwon₀⟩, fun t ht ↦ ?_⟩
    rw [hinv₀.requests, List.length_map] at hi
    rw [List.getElem?_eq_none hi] at ht
    cases ht
  obtain ⟨ts, hinv, hreplays, -⟩ := auth_invariant h (fun _ _ _ _ hG ↦ hG.1) hinv₀ hstart hm₀
    (fun hinv h hk ha hG hx ↦ replays_call h hreads hinv hk ha hG hx)
    (fun _ h _ _ he ↦ replays_event h he)
  obtain ⟨k, u, hu, hwon⟩ := hreplays.winner
  have hclaims : u.phase.claims = some d := by
    rw [hwon]
    rfl
  have hissued := ((hinv.knows k u hu).shows hclaims).issued
  obtain ⟨t, ht, hreq⟩ : ∃ t, ts[i]? = some t ∧ t.req = .refresh token := by
    rw [AuthState.Presents, hinv.requests, List.getElem?_map] at hi'
    exact Option.map_eq_some_iff.1 hi'
  have hcall := hreplays.call t ht hreq
  refine ⟨?_, fun n hn ↦ ⟨d, hissued, (hcall.marked n hn).2⟩⟩
  rcases hcall.answered rsp hrsp with ⟨hcode, e, hwiped⟩ | ⟨hcode, hend⟩
  · -- the replay has been noticed
    have hclaims' : t.phase.claims = some e := by
      rw [hwiped]
      rfl
    obtain ⟨token', htoken, hreads'⟩ := ((hinv.knows i t ht).shows hclaims').token
    rw [hreq] at htoken
    obtain rfl := AuthReq.refresh.inj htoken
    rw [hreads] at hreads'
    have hkey : e.rt_key = rt_key d.sub d.did := by
      rw [TokenClaims.rt_key, ← Option.some.inj hreads']
    have hnone := hreplays.empty _ (hcall.left e hwiped)
    rw [hkey] at hnone
    exact ⟨fun _ ↦ hcall.unmarked (by rw [hwiped]; rfl), fun _ ↦ ⟨hcode, hnone⟩⟩
  · refine ⟨fun h ↦ absurd h.1 hcode, fun h ↦ ?_⟩
    obtain ⟨n, hn⟩ := h
    have hpassed := (hcall.marked n hn).1
    rcases hend with hfailed | ⟨e, hlisted⟩
    · have hnone := hcall.accepted hvalid
      rw [hfailed] at hnone
      exact absurd rfl hnone
    · rw [hlisted] at hpassed
      cases hpassed

/-- Alice's phone has refreshed its tokens: thread 1. -/
def aliceRefreshes : List (Machine.Label AuthChoice AuthEv) :=
  aliceLogsIn ++ [.event (.refresh (phoneToken 1)), .call 1 {}, .call 1 {}, .call 1 {},
    .call 1 (issues 2), .call 1 (issues 3)] ++ List.replicate 5 (.call 1 {})

/-- The old token is presented again, and expires while the request is under way. -/
theorem replay_revokes_family_alice :
    ({} : AuthState).Fresh ∧ ∃ p₀ p,
      (identityService phoneConfig phoneLib).Reach (keyStaysEmpty 2) ⟨[], {}⟩ p₀ ∧
      (identityService phoneConfig phoneLib).Reach (keyStaysEmpty 2) p₀ p ∧
      p₀.shared.Succeeds 1 ∧ p.shared.Presents 2 (phoneToken 1) ∧
      p.shared.active.get p.shared.now (rt_key "alice" "phone") = none := by
  have hfresh : ({} : AuthState).Fresh := ⟨rfl, rfl, rfl, rfl, rfl, rfl, rfl, rfl, rfl⟩
  have hreads : phoneLib.reads (phoneToken 1) =
      some ⟨"alice", "phone", "0b0b0b0b0b0b0b0b0b0b0b0b0b0b0b0b"⟩ := by decide +kernel
  obtain ⟨p₀, hp₀, ⟨hpresents₀, hsucc, hlen⟩, hrest⟩ := Machine.exists_of_run
    (identityService phoneConfig phoneLib) (keyStaysEmpty 2) ⟨[], {}⟩ aliceRefreshes
    (fun p₀ ↦ (p₀.shared.Presents 1 (phoneToken 1) ∧ p₀.shared.Succeeds 1 ∧
      p₀.shared.requests.length = 2) ∧
      ((identityService phoneConfig phoneLib).run (keyStaysEmpty 2) p₀
        ([.event (.refresh (phoneToken 1)), .call 2 {}, .event (.tick 2592000)] ++
          List.replicate 5 (.call 2 {}))).any
        (fun p ↦ p.shared.Presents 2 (phoneToken 1) ∧ 2 ∈ p.shared.accepted ∧
          (2, .error ⟨error.kAuthRefreshTokenReused, "refresh token mismatch active"⟩) ∈
            p.shared.answers ∧ (2, 2592000) ∈ p.shared.unmarked) = true) (by decide +kernel)
  obtain ⟨p, hp, hpresents, hvalid, hans, hunmarked⟩ := Machine.exists_of_run _ _ p₀ _ _ hrest
  obtain ⟨hiff, -⟩ := replay_revokes_family phoneConfig phoneLib {} hfresh 2 p₀ p hp₀ hp _ _ hreads
    1 hpresents₀ hsucc (by omega) hpresents hvalid _ hans
  exact ⟨hfresh, p₀, p, hp₀, hp, hsucc, hpresents, (hiff.2 ⟨_, hunmarked⟩).2⟩

/-- The old token is presented again at once: it is refused as revoked, and the newer token is used
after that. -/
theorem replay_refused_as_revoked :
    ∃ p₀ p, (identityService phoneConfig phoneLib).Reach redisAnswers ⟨[], {}⟩ p₀ ∧
      (identityService phoneConfig phoneLib).Reach redisAnswers p₀ p ∧
      p₀.shared.Presents 1 (phoneToken 1) ∧ p₀.shared.Succeeds 1 ∧
      p₀.shared.requests.length = 2 ∧ p.shared.Presents 2 (phoneToken 1) ∧
      2 ∈ p.shared.accepted ∧
      (2, .error ⟨error.kAuthTokenInvalid, "refresh token revoked"⟩) ∈ p.shared.answers ∧
      p.shared.active.get p.shared.now (rt_key "alice" "phone") ≠ none ∧
      p.shared.Presents 3 (phoneToken 3) ∧ p.shared.Succeeds 3 := by
  obtain ⟨p₀, hp₀, hbefore, hrest⟩ := Machine.exists_of_run
    (identityService phoneConfig phoneLib) redisAnswers ⟨[], {}⟩ aliceRefreshes
    (fun p₀ ↦ (p₀.shared.Presents 1 (phoneToken 1) ∧ p₀.shared.Succeeds 1 ∧
      p₀.shared.requests.length = 2) ∧
      ((identityService phoneConfig phoneLib).run redisAnswers p₀
        ([.event (.refresh (phoneToken 1))] ++ List.replicate 3 (.call 2 {}) ++
          [.event (.refresh (phoneToken 3)), .call 3 {}, .call 3 {}, .call 3 {},
            .call 3 (issues 4), .call 3 (issues 5)] ++ List.replicate 5 (.call 3 {}))).any
        (fun p ↦ p.shared.Presents 2 (phoneToken 1) ∧ 2 ∈ p.shared.accepted ∧
          (2, .error ⟨error.kAuthTokenInvalid, "refresh token revoked"⟩) ∈ p.shared.answers ∧
          p.shared.active.get p.shared.now (rt_key "alice" "phone") ≠ none ∧
          p.shared.Presents 3 (phoneToken 3) ∧ p.shared.Succeeds 3) = true) (by decide +kernel)
  obtain ⟨p, hp, hafter⟩ := Machine.exists_of_run _ _ p₀ _ _ hrest
  exact ⟨p₀, p, hp₀, hp, hbefore.1, hbefore.2.1, hbefore.2.2, hafter⟩

end ChatNow
