import ChatNow.Identity.Machine

/-!
# What calls and keys agree on

The invariant (`AuthInv`) on which the results about refresh tokens rest, in runs in which no
command of Redis throws.

A refresh token passes from the call that has issued it (`AuthCall.held`) to the refresh key of its
device (`AuthState.put`), and is exchanged there for another. It is put under a key once, so after
it has been replaced it does not come back (`AuthState.Replaced`): that is what the check of the
refresh key is good for, whatever has become of the other two keys.
-/

namespace ChatNow

open Prog AuthOp

/-! ### What is said of requests -/

namespace AuthState

variable (s : AuthState)

/-- Thread `i` has answered with success. -/
def Succeeds (i : ℕ) : Prop := ∃ rsp, (i, .ok rsp) ∈ s.answers

instance (i : ℕ) : Decidable (s.Succeeds i) :=
  decidable_of_iff (s.answers.any fun x ↦ x.1 = i && x.2.isOk) <| by
    simp only [List.any_eq_true, Bool.and_eq_true, decide_eq_true_eq, Succeeds, Prod.exists]
    constructor
    · rintro ⟨j, rsp, hmem, rfl, hok⟩
      cases rsp with
      | error e => cases hok
      | ok rsp => exact ⟨rsp, hmem⟩
    · rintro ⟨rsp, hmem⟩
      exact ⟨i, .ok rsp, hmem, rfl, rfl⟩

/-- Thread `i` is a `RefreshToken` that presents the token. -/
def Presents (i : ℕ) (token : String) : Prop := s.requests[i]? = some (.refresh token)

instance (i : ℕ) (token : String) : Decidable (s.Presents i token) :=
  inferInstanceAs (Decidable (s.requests[i]? = some (.refresh token)))

/-- No request has arrived and no token has been issued. -/
structure Fresh : Prop where
  requests : s.requests = []
  tokens : s.tokens = .empty
  active : s.active = .empty
  chain : s.chain = .empty
  answers : s.answers = []
  accepted : s.accepted = []
  unmarked : s.unmarked = []
  put : s.put = []
  left : s.left = []

/-- The refresh token has been under the key of its device and is not any more. -/
structure Replaced (c : TokenClaims) : Prop where
  put : c.jti ∈ s.put
  gone : ∀ e, s.active c.rt_key ≠ some (c.jti, e)

/-- What the steps of others leave of what a call knows. -/
structure Keeps (s s' : AuthState) : Prop where
  tokens : ∀ v c, s.tokens.find v = some c → s'.tokens.find v = some c
  put : ∀ v ∈ s.put, v ∈ s'.put
  active : ∀ k v e, s'.active k = some (v, e) → s.active k = some (v, e) ∨ v ∉ s.put ∧ v ∈ s'.put

variable {s} {s' : AuthState}

theorem Keeps.of_eq (htokens : s'.tokens = s.tokens) (hput : s'.put = s.put)
    (hactive : s'.active = s.active) : s.Keeps s' where
  tokens v c hv := by rw [htokens]; exact hv
  put v hv := by rw [hput]; exact hv
  active k v e hk := by rw [hactive] at hk; exact .inl hk

theorem Keeps.replaced {c : TokenClaims} (hk : s.Keeps s') (h : s.Replaced c) : s'.Replaced c where
  put := hk.put _ h.put
  gone e he := by
    rcases hk.active _ _ _ he with hold | ⟨hnew, -⟩
    · exact h.gone e hold
    · exact hnew h.put

theorem Keeps.find_none {v : String} (hk : s.Keeps s') (h : s'.tokens.find v = none) :
    s.tokens.find v = none := by
  cases hv : s.tokens.find v with
  | none => rfl
  | some c =>
    rw [hk.tokens v c hv] at h
    cases h

end AuthState

/-- No command of Redis throws. -/
def redisAnswers : Machine.Guard AuthOp AuthOp.Res AuthState AuthChoice AuthEv where
  onOp _ _ c _ := c.fault = false
  onEv _ _ := True

instance (i : ℕ) (o : AuthOp) (c : AuthChoice) (s : AuthState) :
    Decidable (redisAnswers.onOp i o c s) :=
  inferInstanceAs (Decidable (c.fault = false))

instance (e : AuthEv) (p : AuthPool) : Decidable (redisAnswers.onEv e p) := .isTrue trivial

/-! ### What a call knows -/

/-- The claims are those of a refresh token that has been issued, and that the request presents. -/
structure AuthReq.Shows (lib : JwtLib) (s : AuthState) (req : AuthReq) (c : TokenClaims) :
    Prop where
  token : ∃ token, req = .refresh token ∧ lib.reads token = some c.toJwtClaims
  issued : s.tokens.find c.jti = some c
  is_refresh : c.is_refresh = true

namespace AuthCall

variable (lib : JwtLib) (s : AuthState) (t : AuthCall)

/-- What a call knows in its phase. -/
def Knows : Prop :=
  match t.phase with
  | .start => True
  | .failed => True
  | .verified c => t.req.Shows lib s c
  | .blacklisted c => t.req.Shows lib s c
  | .unrevoked c => t.req.Shows lib s c
  | .reused c => t.req.Shows lib s c
  | .wiped c => t.req.Shows lib s c
  | .matched c => t.req.Shows lib s c ∧ c.jti ∈ s.put
  | .chained c => t.req.Shows lib s c ∧ c.jti ∈ s.put
  | .rotated c => t.req.Shows lib s c ∧ s.Replaced c
  | .clocked c now => t.req.Shows lib s c ∧ s.Replaced c ∧ now ≤ s.now
  | .spent c => t.req.Shows lib s c ∧ s.Replaced c
  | .won c => t.req.Shows lib s c ∧ s.Replaced c
  | .leaving => ∃ ctx, t.req = .logout ctx
  | .left => ∃ ctx, t.req = .logout ctx

/-- The call may have answered with success. -/
def Succeeded : Prop := (∃ req, t.req = .login req) ∨ t.phase = .left ∨ ∃ c, t.phase = .won c

variable {lib s t} {s' : AuthState} {c : TokenClaims}

theorem shows_keep {req : AuthReq} (hk : s.Keeps s') (h : req.Shows lib s c) :
    req.Shows lib s' c :=
  ⟨h.token, hk.tokens _ _ h.issued, h.is_refresh⟩

theorem Knows.keep (h : t.Knows lib s) (hk : s.Keeps s') (hnow : s.now ≤ s'.now) :
    t.Knows lib s' := by
  unfold Knows at h ⊢
  cases hphase : t.phase with
  | start => trivial
  | failed => trivial
  | verified c => rw [hphase] at h; exact shows_keep hk h
  | blacklisted c => rw [hphase] at h; exact shows_keep hk h
  | unrevoked c => rw [hphase] at h; exact shows_keep hk h
  | reused c => rw [hphase] at h; exact shows_keep hk h
  | wiped c => rw [hphase] at h; exact shows_keep hk h
  | matched c => rw [hphase] at h; exact ⟨shows_keep hk h.1, hk.put _ h.2⟩
  | chained c => rw [hphase] at h; exact ⟨shows_keep hk h.1, hk.put _ h.2⟩
  | rotated c => rw [hphase] at h; exact ⟨shows_keep hk h.1, hk.replaced h.2⟩
  | clocked c now =>
    rw [hphase] at h
    exact ⟨shows_keep hk h.1, hk.replaced h.2.1, h.2.2.trans hnow⟩
  | spent c => rw [hphase] at h; exact ⟨shows_keep hk h.1, hk.replaced h.2⟩
  | won c => rw [hphase] at h; exact ⟨shows_keep hk h.1, hk.replaced h.2⟩
  | leaving => rw [hphase] at h; exact h
  | left => rw [hphase] at h; exact h

theorem Knows.shows (h : t.Knows lib s) (hc : t.phase.claims = some c) : t.req.Shows lib s c := by
  unfold Knows at h
  cases hphase : t.phase <;> rw [hphase] at h hc <;> cases hc <;> first | exact h | exact h.1

theorem Knows.put (h : t.Knows lib s) (hc : t.phase.past = some c) : c.jti ∈ s.put := by
  unfold Knows at h
  cases hphase : t.phase <;> rw [hphase] at h hc <;> cases hc <;>
    first | exact h.2 | exact h.2.put | exact h.2.1.put

theorem Knows.replaced (h : t.Knows lib s) (hc : t.phase.exchanged = some c) : s.Replaced c := by
  unfold Knows at h
  cases hphase : t.phase <;> rw [hphase] at h hc <;> cases hc <;> first | exact h.2 | exact h.2.1

end AuthCall

/-! ### The invariant -/

/-- What is known of a token that has been issued. -/
structure TokenClaims.Signed (cfg : JwtConfig) (now : ℤ) (c : TokenClaims) : Prop where
  named : c.sub ≠ "" ∧ c.did ≠ "" ∧ c.jti ≠ ""
  expires : c.is_refresh = true → c.exp_sec ≤ now + cfg.refresh_ttl_sec

theorem TokenClaims.Signed.later {cfg : JwtConfig} {now later : ℤ} {c : TokenClaims}
    (h : c.Signed cfg now) (hle : now ≤ later) : c.Signed cfg later := by
  refine ⟨h.named, fun hrefresh ↦ ?_⟩
  have hexp := h.expires hrefresh
  omega

/-- The calls and the keys agree. -/
structure AuthInv (cfg : JwtConfig) (lib : JwtLib) (ts : List AuthCall) (s : AuthState) : Prop where
  requests : s.requests = ts.map (·.req)
  knows : ∀ (i : ℕ) t, ts[i]? = some t → t.Knows lib s
  active : ∀ k v e, s.active k = some (v, e) → v ∈ s.put
  issued : ∀ v ∈ s.put, s.tokens.find v ≠ none
  signed : ∀ v c, s.tokens.find v = some c → c.Signed cfg s.now
  held : ∀ (i : ℕ) t, ts[i]? = some t → ∀ v ∈ t.held, v ∉ s.put ∧ s.tokens.find v ≠ none
  held_one : ∀ (i j : ℕ) t u, ts[i]? = some t → ts[j]? = some u → ∀ v ∈ t.held, v ∈ u.held → i = j
  answered : ∀ i rsp, (i, .ok rsp) ∈ s.answers → ∃ t, ts[i]? = some t ∧ t.Succeeded

section Steps

variable {cfg : JwtConfig} {lib : JwtLib} {ts : List AuthCall} {s s' : AuthState} {i : ℕ}
  {t t' : AuthCall}

/-- A step of one thread, which knows what it has to know afterwards. A refresh token that has been
put under a key was held by it, and one that it holds now it held before, or it is new. -/
theorem AuthInv.move (h : AuthInv cfg lib ts s) (hi : ts[i]? = some t)
    (hrequests : s'.requests = s.requests) (hk : s.Keeps s')
    (hnow : s.now ≤ s'.now) (hreq : t'.req = t.req) (hknows : t'.Knows lib s')
    (hput : ∀ v ∈ s'.put, v ∈ s.put ∨ v ∈ t.held ∧ v ∉ t'.held)
    (hsigned : ∀ v c, s'.tokens.find v = some c → s.tokens.find v = some c ∨ c.Signed cfg s'.now)
    (hheld : ∀ v ∈ t'.held, v ∈ t.held ∨ s.tokens.find v = none ∧ s'.tokens.find v ≠ none)
    (hsucc : t.Succeeded → t'.Succeeded)
    (hans : ∀ j rsp, (j, .ok rsp) ∈ s'.answers → (j, .ok rsp) ∈ s.answers ∨ j = i ∧ t'.Succeeded) :
    AuthInv cfg lib (ts.set i t') s' where
  requests := by
    rw [hrequests, h.requests, Pool.map_set_eq hi hreq]
  knows j u hu := by
    rcases Pool.getElem?_set_cases hu with ⟨-, rfl⟩ | ⟨-, hu⟩
    · exact hknows
    · exact (h.knows j u hu).keep hk hnow
  active k v e hv := by
    rcases hk.active k v e hv with hold | ⟨-, hnew⟩
    · exact hk.put v (h.active k v e hold)
    · exact hnew
  issued v hv hnone := by
    have hnone' := hk.find_none hnone
    rcases hput v hv with hold | ⟨hold, -⟩
    · exact h.issued v hold hnone'
    · exact (h.held i t hi v hold).2 hnone'
  signed v d hv := by
    rcases hsigned v d hv with hold | hnew
    · exact (h.signed v d hold).later hnow
    · exact hnew
  held j u hu v hv := by
    rcases Pool.getElem?_set_cases hu with ⟨-, rfl⟩ | ⟨hne, hu⟩
    · refine ⟨fun hmem ↦ ?_, fun hnone ↦ ?_⟩
      · rcases hput v hmem with hold | ⟨-, hnot⟩
        · rcases hheld v hv with hv' | ⟨hnew, -⟩
          · exact (h.held i t hi v hv').1 hold
          · exact h.issued v hold hnew
        · exact hnot hv
      · rcases hheld v hv with hv' | ⟨-, hnew⟩
        · exact (h.held i t hi v hv').2 (hk.find_none hnone)
        · exact hnew hnone
    · obtain ⟨hnot, hissued⟩ := h.held j u hu v hv
      refine ⟨fun hmem ↦ ?_, fun hnone ↦ hissued (hk.find_none hnone)⟩
      rcases hput v hmem with hold | ⟨hold, -⟩
      · exact hnot hold
      · exact hne (h.held_one j i u t hu hi v hv hold)
  held_one := by
    have hother : ∀ (j : ℕ) u, j ≠ i → ts[j]? = some u → ∀ v ∈ t'.held, v ∉ u.held := by
      intro j u hne hu v hv hv'
      rcases hheld v hv with hold | ⟨hnew, -⟩
      · exact hne (h.held_one j i u t hu hi v hv' hold)
      · exact (h.held j u hu v hv').2 hnew
    intro j k u w hu hw v hv hv'
    rcases Pool.getElem?_set_cases hu with ⟨hj, rfl⟩ | ⟨hj, hold⟩
    · rcases Pool.getElem?_set_cases hw with ⟨hk', -⟩ | ⟨hk', hw'⟩
      · exact hj.trans hk'.symm
      · exact absurd hv' (hother k w hk' hw' v hv)
    · rcases Pool.getElem?_set_cases hw with ⟨-, rfl⟩ | ⟨-, hw'⟩
      · exact absurd hv (hother j u hj hold v hv')
      · exact h.held_one j k u w hold hw' v hv hv'
  answered j rsp hj := by
    rcases hans j rsp hj with hold | ⟨rfl, hsucc'⟩
    · obtain ⟨u, hu, hdone⟩ := h.answered j rsp hold
      rcases eq_or_ne j i with rfl | hne
      · obtain rfl := Option.some.inj (hi.symm.trans hu)
        exact ⟨t', Pool.getElem?_set_self hi, hsucc hdone⟩
      · refine ⟨u, ?_, hdone⟩
        rw [List.getElem?_set_ne hne.symm]
        exact hu
    · exact ⟨t', Pool.getElem?_set_self hi, hsucc'⟩

/-- A step of one thread that issues no token and puts none under a key. -/
theorem AuthInv.turn {ph : AuthPhase} (h : AuthInv cfg lib ts s) (hi : ts[i]? = some t)
    (hrequests : s'.requests = s.requests) (hnow : s'.now = s.now) (htokens : s'.tokens = s.tokens)
    (hput : s'.put = s.put) (hans : s'.answers = s.answers)
    (hactive : ∀ k v e, s'.active k = some (v, e) → s.active k = some (v, e))
    (hknows : AuthCall.Knows lib s' { t with phase := ph })
    (hsucc : t.Succeeded → AuthCall.Succeeded { t with phase := ph }) :
    AuthInv cfg lib (ts.set i { t with phase := ph }) s' := by
  have hk : s.Keeps s' :=
    { tokens := fun v c hv ↦ by rw [htokens]; exact hv
      put := fun v hv ↦ by rw [hput]; exact hv
      active := fun k v e hv ↦ .inl (hactive k v e hv) }
  refine h.move hi hrequests hk (le_of_eq hnow.symm) rfl hknows (fun v hv ↦ .inl ?_)
    (fun v d hv ↦ .inl ?_)
    (fun v hv ↦ .inl hv) hsucc fun j rsp hj ↦ .inl ?_
  · rwa [hput] at hv
  · rwa [htokens] at hv
  · rwa [hans] at hj

theorem AuthCall.Succeeded.next {o : AuthOp} {r : o.Res} (h : t.Succeeded)
    (ha : t.allowed cfg o) : ((authContract cfg).next t o r).Succeeded := by
  rcases h with h | h | ⟨c, h⟩
  · exact .inl h
  · refine .inr (.inl ?_)
    show AuthCall.nextPhase t.phase o r = .left
    rw [h]
    cases o with
    | verify token require_refresh =>
      obtain ⟨-, -, hstart⟩ := ha
      rw [h] at hstart
      cases hstart
    | respond rsp => cases rsp <;> rfl
    | _ => rfl
  · refine .inr (.inr ⟨c, ?_⟩)
    show AuthCall.nextPhase t.phase o r = .won c
    rw [h]
    cases o with
    | verify token require_refresh =>
      obtain ⟨-, -, hstart⟩ := ha
      rw [h] at hstart
      cases hstart
    | respond rsp => cases rsp <;> rfl
    | _ => rfl

theorem AuthInv.logsOut_iff (h : AuthInv cfg lib ts s) (hi : ts[i]? = some t) :
    s.logsOut i = true ↔ ∃ ctx, t.req = .logout ctx := by
  have hreq : s.requests[i]? = some t.req := by
    rw [h.requests, List.getElem?_map, hi]
    rfl
  rw [AuthState.logsOut, hreq]
  cases t.req with
  | logout ctx => exact ⟨fun _ ↦ ⟨ctx, rfl⟩, fun _ ↦ rfl⟩
  | login req =>
    refine ⟨fun hfalse ↦ ?_, fun ⟨ctx, hctx⟩ ↦ ?_⟩
    · cases hfalse
    · cases hctx
  | refresh token =>
    refine ⟨fun hfalse ↦ ?_, fun ⟨ctx, hctx⟩ ↦ ?_⟩
    · cases hfalse
    · cases hctx

/-- What has one id is one token. -/
theorem AuthInv.claims_eq (h : AuthInv cfg lib ts s) {j : ℕ} {u : AuthCall} {d e : TokenClaims}
    (hi : ts[i]? = some t) (hj : ts[j]? = some u) (hd : t.phase.claims = some d)
    (he : u.phase.claims = some e) (hjti : d.jti = e.jti) : d = e := by
  have hissued := ((h.knows i t hi).shows hd).issued
  have hissued' := ((h.knows j u hj).shows he).issued
  rw [hjti, hissued'] at hissued
  exact (Option.some.inj hissued).symm

/-! ### The operations -/

/-- A call goes on in the phase it was in, with nothing changed that it knows of. -/
theorem AuthInv.stay {ph : AuthPhase} (h : AuthInv cfg lib ts s) (hi : ts[i]? = some t)
    (hph : ph = t.phase) : AuthInv cfg lib (ts.set i { t with phase := ph }) s := by
  refine h.turn hi rfl rfl rfl rfl rfl (fun _ _ _ hk ↦ hk) ?_ ?_ <;> rw [hph]
  · exact h.knows i t hi
  · exact id

variable {c : AuthChoice}

/-- `verify` accepts what has been issued. -/
theorem authInv_verify {token : String} {require_refresh : Bool} {r : Except JwtThrown TokenClaims}
    (h : AuthInv cfg lib ts s) (hi : ts[i]? = some t)
    (ha : t.allowed cfg (verify token require_refresh))
    (hx : s.exec cfg lib i (verify token require_refresh) c = some (r, s')) :
    AuthCall.admits (verify token require_refresh) r ∧
      AuthInv cfg lib (ts.set i ((authContract cfg).next t (verify token require_refresh) r)) s' := by
  obtain ⟨hreq, rfl, hstart⟩ := ha
  have hsucc : t.Succeeded → ∀ ph, AuthCall.Succeeded { t with phase := ph } := by
    rintro (⟨req, hlogin⟩ | hleft | ⟨c, hwon⟩)
    · rw [hreq] at hlogin
      cases hlogin
    · rw [hstart] at hleft
      cases hleft
    · rw [hstart] at hwon
      cases hwon
  simp only [AuthState.exec] at hx
  split at hx
  · next e herr =>
    obtain ⟨rfl, rfl⟩ := Prod.mk.inj (Option.some.inj hx)
    refine ⟨?_, h.turn hi rfl rfl rfl rfl rfl (fun _ _ _ hk ↦ hk) trivial
      fun hs ↦ hsucc hs _⟩
    cases e with
    | other => exact trivial
    | service e =>
      have hcode := JwtCodec.verify_error herr
      intro hreused
      rw [hreused] at hcode
      revert hcode
      decide
  · next claims hok =>
    split at hx
    · next hissued =>
      obtain ⟨rfl, rfl⟩ := Prod.mk.inj (Option.some.inj hx)
      obtain ⟨d, -, -, -, -, -, hrefresh, -⟩ := JwtCodec.verify_ok hok
      have hknows : AuthCall.Knows lib { s with accepted := i :: s.accepted }
          { t with phase := .verified claims } :=
        ⟨⟨token, hreq, JwtCodec.reads_of_verify hok⟩, hissued, hrefresh⟩
      exact ⟨(h.signed _ _ hissued).named,
        h.turn hi rfl rfl rfl rfl rfl (fun _ _ _ hk ↦ hk) hknows fun hs ↦ hsucc hs _⟩
    · cases hx

/-- A new token is nobody else's. -/
theorem authInv_issue {uid did : String} {is_refresh : Bool} {r : String × String}
    (h : AuthInv cfg lib ts s) (hi : ts[i]? = some t)
    (ha : t.allowed cfg (issue uid did is_refresh))
    (hx : s.exec cfg lib i (issue uid did is_refresh) c = some (r, s')) :
    AuthCall.admits (issue uid did is_refresh) r ∧
      AuthInv cfg lib (ts.set i ((authContract cfg).next t (issue uid did is_refresh) r)) s' := by
  obtain ⟨rfl, hjti, -, hnone, tokens, rfl, hfind⟩ := AuthState.addToken_spec hx
  refine ⟨hjti, ?_⟩
  have hk : s.Keeps { s with tokens := tokens } :=
    { tokens := (AuthState.effect_exec hx).tokens
      put := fun _ hv ↦ hv
      active := fun _ _ _ hv ↦ .inl hv }
  refine h.move hi rfl hk le_rfl rfl ?_ (fun v hv ↦ .inl hv) (fun v d hv ↦ ?_) ?_ (fun hs ↦ ?_)
    fun j rsp hj ↦ .inl hj
  · exact (h.knows i t hi).keep hk le_rfl
  · rw [show tokens.find v = _ from hfind v] at hv
    split at hv
    · obtain rfl := Option.some.inj hv
      refine .inr ⟨⟨ha.1, ha.2, hjti⟩, fun hrefresh ↦ ?_⟩
      obtain rfl : is_refresh = true := hrefresh
      exact le_rfl
    · exact .inl hv
  · intro v hv
    cases is_refresh with
    | false => exact .inl hv
    | true =>
      rcases List.mem_cons.1 hv with rfl | hv
      · refine .inr ⟨hnone, ?_⟩
        show tokens.find _ ≠ none
        rw [hfind, if_pos rfl]
        exact Option.some_ne_none _
      · exact .inl hv
  · exact hs

/-- A refresh token that is put under a key has not been there before. -/
theorem authInv_setActive {uid did jti : String} {ttl_sec : ℤ} {r : Reply Unit}
    (h : AuthInv cfg lib ts s) (hi : ts[i]? = some t)
    (ha : t.allowed cfg (setActive uid did jti ttl_sec)) (hc : c.fault = false)
    (hx : s.exec cfg lib i (setActive uid did jti ttl_sec) c = some (r, s')) :
    AuthCall.admits (setActive uid did jti ttl_sec) r ∧
      AuthInv cfg lib (ts.set i ((authContract cfg).next t (setActive uid did jti ttl_sec) r)) s' := by
  have ⟨hheld, _, hwho⟩ := ha
  obtain ⟨hr, rfl⟩ := Prod.mk.inj (Option.some.inj hx)
  rw [c.reply_of_answered hc] at hr
  refine ⟨hr.symm, ?_⟩
  rw [if_pos (c.acts_of_answered hc)]
  have hnew : jti ∉ s.put := (h.held i t hi jti hheld).1
  have hactive {k v : String} {e : ℤ}
      (hv : (s.activate (rt_key uid did) jti ttl_sec).active k = some (v, e)) :
      k = rt_key uid did ∧ v = jti ∨ s.active k = some (v, e) := by
    rcases Expiring.setEx_cases hv with ⟨hkey, hval, -⟩ | ⟨-, hold⟩
    · exact .inl ⟨hkey, hval⟩
    · exact .inr hold
  have hk : s.Keeps (s.activate (rt_key uid did) jti ttl_sec) :=
    { tokens := fun _ _ hv ↦ hv
      put := fun _ hv ↦ List.mem_cons_of_mem _ hv
      active := fun k v e hv ↦ by
        rcases hactive hv with ⟨-, rfl⟩ | hold
        · exact .inr ⟨hnew, List.mem_cons_self⟩
        · exact .inl hold }
  have hkept := (h.knows i t hi).keep hk le_rfl
  refine h.move hi rfl hk le_rfl rfl ?_ (fun v hv ↦ ?_) (fun v d hv ↦ .inl hv)
    (fun v hv ↦ absurd hv List.not_mem_nil) (fun hs ↦ hs.next ha) fun j rsp hj ↦ .inl hj
  · rcases AuthCall.nextPhase_setActive t.phase uid did jti ttl_sec r with ⟨d, hph, hnext⟩ | hsame
    · -- the key of the token holds the new one
      have hput : d.jti ∈ s.put := by
        have hk := h.knows i t hi
        refine hk.put (c := d) ?_
        rw [hph]
        rfl
      have hshows := hkept.shows (c := d) (by rw [hph]; rfl)
      have hkey : rt_key uid did = d.rt_key := by
        rcases hwho with ⟨req, hlogin⟩ | ⟨d', hd', rfl, rfl⟩
        · obtain ⟨token, hreq, -⟩ := hshows.token
          rw [hlogin] at hreq
          cases hreq
        · rw [hph] at hd'
          cases hd'
          rfl
      have hrep : (s.activate (rt_key uid did) jti ttl_sec).Replaced d := by
        refine ⟨hk.put _ hput, fun e he ↦ ?_⟩
        rw [← hkey] at he
        rw [show (s.activate (rt_key uid did) jti ttl_sec).active (rt_key uid did) = _ from
          Expiring.setEx_self ..] at he
        obtain ⟨hjti, -⟩ := Prod.mk.inj (Option.some.inj he)
        rw [← hjti] at hput
        exact hnew hput
      show AuthCall.Knows lib _ ⟨t.req, AuthCall.nextPhase _ _ _, _⟩
      rw [hnext]
      exact ⟨hshows, hrep⟩
    · show AuthCall.Knows lib _ ⟨t.req, AuthCall.nextPhase _ _ _, _⟩
      rw [hsame]
      exact hkept
  · rcases List.mem_cons.1 hv with rfl | hv
    · exact .inr ⟨hheld, List.not_mem_nil⟩
    · exact .inl hv

/-- What is found under a refresh key has been put there. -/
theorem authInv_getActive {uid did : String} {r : Reply (Option String)}
    (h : AuthInv cfg lib ts s) (hi : ts[i]? = some t) (ha : t.allowed cfg (getActive uid did))
    (hc : c.fault = false) (hx : s.exec cfg lib i (getActive uid did) c = some (r, s')) :
    AuthCall.admits (getActive uid did) r ∧
      AuthInv cfg lib (ts.set i ((authContract cfg).next t (getActive uid did) r)) s' := by
  obtain ⟨hr, rfl⟩ := Prod.mk.inj (Option.some.inj hx)
  rw [c.reply_of_answered hc] at hr
  obtain rfl := hr.symm
  have hsucc : t.Succeeded → ((authContract cfg).next t (getActive uid did)
      (.ok (s.active.get s.now (rt_key uid did)))).Succeeded := fun hs ↦ hs.next ha
  refine ⟨fun hthrown ↦ (by cases hthrown), ?_⟩
  obtain ⟨req, phase, held⟩ := t
  rcases ha with ⟨⟨ctx, rfl, rfl, rfl⟩, rfl⟩ | ⟨d, rfl, rfl, rfl⟩
  · -- a `Logout`
    have hlogs : s.logsOut i = true := (h.logsOut_iff hi).2 ⟨ctx, rfl⟩
    simp only [authContract, AuthCall.nextPhase] at hsucc ⊢
    by_cases hv : (s.active.get s.now (rt_key ctx.user_id ctx.device_id)).getD "" = ""
    · rw [if_pos hv] at hsucc ⊢
      rw [if_pos (by rw [hlogs, hc, hv]; decide)]
      exact h.turn hi rfl rfl rfl rfl rfl (fun _ _ _ hk ↦ hk) ⟨ctx, rfl⟩ hsucc
    · rw [if_neg hv] at hsucc ⊢
      rw [if_neg (by rw [hlogs, hc, decide_eq_false hv]; decide)]
      exact h.turn hi rfl rfl rfl rfl rfl (fun _ _ _ hk ↦ hk) ⟨ctx, rfl⟩ hsucc
  · -- a `RefreshToken`
    have hshows : req.Shows lib s d := h.knows i _ hi
    have hlogs : s.logsOut i = false := by
      refine Bool.eq_false_iff.2 fun hlogs ↦ ?_
      obtain ⟨ctx, hctx⟩ := (h.logsOut_iff hi).1 hlogs
      obtain ⟨token, htoken, -⟩ := hshows.token
      rw [show req = .logout ctx from hctx] at htoken
      cases htoken
    rw [hlogs]
    simp only [authContract, AuthCall.nextPhase] at hsucc ⊢
    refine h.turn hi rfl rfl rfl rfl rfl (fun _ _ _ hk ↦ hk) ?_ hsucc
    by_cases hv : (s.active.get s.now (rt_key d.sub d.did)).getD "" = d.jti
    · rw [if_pos hv]
      refine ⟨hshows, ?_⟩
      have hne : d.jti ≠ "" := (h.signed _ _ hshows.issued).named.2.2
      cases hget : s.active.get s.now (rt_key d.sub d.did) with
      | none =>
        rw [hget] at hv
        exact absurd hv.symm hne
      | some v =>
        rw [hget] at hv
        obtain ⟨e, hkey, -⟩ := s.active.get_eq_some.1 hget
        rw [← hv]
        exact h.active _ v e hkey
    · rw [if_neg hv]
      exact hshows

/-- A refresh key is deleted. -/
theorem authInv_delActive {uid did : String} {r : Reply Unit}
    (h : AuthInv cfg lib ts s) (hi : ts[i]? = some t) (ha : t.allowed cfg (delActive uid did))
    (hc : c.fault = false) (hx : s.exec cfg lib i (delActive uid did) c = some (r, s')) :
    AuthCall.admits (delActive uid did) r ∧
      AuthInv cfg lib (ts.set i ((authContract cfg).next t (delActive uid did) r)) s' := by
  obtain ⟨hr, rfl⟩ := Prod.mk.inj (Option.some.inj hx)
  rw [c.reply_of_answered hc] at hr
  rw [if_pos (c.acts_of_answered hc)]
  refine ⟨hr.symm, ?_⟩
  have hsucc : t.Succeeded → ((authContract cfg).next t (delActive uid did) r).Succeeded :=
    fun hs ↦ hs.next ha
  have hactive (k v : String) (e : ℤ)
      (hk : (s.deactivate i (rt_key uid did)).active k = some (v, e)) :
      s.active k = some (v, e) :=
    (Expiring.of_del hk).2
  refine h.turn hi rfl rfl rfl rfl rfl hactive ?_ hsucc
  obtain ⟨req, phase, held⟩ := t
  rcases ha with ⟨⟨ctx, rfl, rfl, rfl⟩, rfl⟩ | ⟨d, rfl, rfl, rfl⟩
  · exact ⟨ctx, rfl⟩
  · have hshows : req.Shows lib s d := h.knows i _ hi
    exact ⟨hshows.token, hshows.issued, hshows.is_refresh⟩

/-- An answer of success is given in a phase of success. -/
theorem authInv_respond {rsp : Except ServiceError AuthRsp} {r : Unit}
    (h : AuthInv cfg lib ts s) (hi : ts[i]? = some t) (ha : t.allowed cfg (respond rsp))
    (hx : s.exec cfg lib i (respond rsp) c = some (r, s')) :
    AuthInv cfg lib (ts.set i ((authContract cfg).next t (respond rsp) r)) s' := by
  obtain ⟨-, rfl⟩ := Prod.mk.inj (Option.some.inj hx)
  have hk : s.Keeps { s with answers := (i, rsp) :: s.answers } := .of_eq rfl rfl rfl
  have hkept := (h.knows i t hi).keep hk le_rfl
  have hmove (hknows : ((authContract cfg).next t (respond rsp) r).Knows lib
      { s with answers := (i, rsp) :: s.answers })
      (hok : ∀ rsp', rsp = .ok rsp' → ((authContract cfg).next t (respond rsp) r).Succeeded) :
      AuthInv cfg lib (ts.set i ((authContract cfg).next t (respond rsp) r))
        { s with answers := (i, rsp) :: s.answers } := by
    refine h.move hi rfl hk le_rfl rfl hknows (fun v hv ↦ .inl hv) (fun v d hv ↦ .inl hv)
      (fun v hv ↦ .inl hv) (fun hs ↦ hs.next ha) fun j rsp' hj ↦ ?_
    rcases List.mem_cons.1 hj with heq | hj
    · obtain ⟨rfl, rfl⟩ := Prod.mk.inj heq
      exact .inr ⟨rfl, hok rsp' rfl⟩
    · exact .inl hj
  cases rsp with
  | error e => exact hmove hkept fun _ herr ↦ by cases herr
  | ok rsp =>
    have hphase := AuthCall.nextPhase_respond t.phase rsp
    obtain ⟨req, phase, held⟩ := t
    rcases hphase with ⟨d, hd, hnext⟩ | hsame
    · -- the token has been exchanged
      refine hmove ?_ fun _ _ ↦ .inr (.inr ⟨d, hnext⟩)
      have hclaims : phase.exchanged = some d := by
        rcases hd with hd | ⟨now, hd⟩ <;>
        · rw [show phase = _ from hd]
          rfl
      show AuthCall.Knows lib _ ⟨req, AuthCall.nextPhase _ _ _, held⟩
      rw [hnext]
      exact ⟨hkept.shows (AuthPhase.claims_of_past (AuthPhase.past_of_exchanged hclaims)),
        hkept.replaced hclaims⟩
    · refine hmove ?_ fun _ _ ↦ ?_
      · show AuthCall.Knows lib _ ⟨req, AuthCall.nextPhase _ _ _, held⟩
        rw [hsame]
        exact hkept
      · rcases ha with ⟨req, rfl⟩ | hleft | ⟨d, hspent⟩ | ⟨d, now, hclocked, -⟩
        · exact .inl ⟨req, rfl⟩
        · exact .inr (.inl (hsame.trans hleft))
        · rw [show phase = _ from hspent] at hsame
          cases hsame
        · rw [show phase = _ from hclocked] at hsame
          cases hsame

/-- **Every call of a thread** keeps what the calls and the keys agree on. -/
theorem authInv_call {o : AuthOp} {r : o.Res} (h : AuthInv cfg lib ts s) (hi : ts[i]? = some t)
    (ha : (authContract cfg).allowed t o) (hc : c.fault = false)
    (hx : s.exec cfg lib i o c = some (r, s')) :
    (authContract cfg).admits t o r ∧
      AuthInv cfg lib (ts.set i ((authContract cfg).next t o r)) s' := by
  have hknows := h.knows i t hi
  have hsucc : t.Succeeded → ((authContract cfg).next t o r).Succeeded := fun hs ↦ hs.next ha
  cases o with
  | verify token require_refresh => exact authInv_verify h hi ha hx
  | issue uid did is_refresh => exact authInv_issue h hi ha hx
  | setActive uid did jti ttl_sec => exact authInv_setActive h hi ha hc hx
  | getActive uid did => exact authInv_getActive h hi ha hc hx
  | delActive uid did => exact authInv_delActive h hi ha hc hx
  | respond rsp => exact ⟨trivial, authInv_respond h hi ha hx⟩
  | clock =>
    obtain ⟨rfl, rfl⟩ := Prod.mk.inj (Option.some.inj hx)
    refine ⟨trivial, h.turn hi rfl rfl rfl rfl rfl (fun _ _ _ hk ↦ hk) ?_ hsucc⟩
    rcases AuthCall.nextPhase_clock t.phase s.now with ⟨d, hph, hnext⟩ | hsame
    · rw [hnext]
      have hshows := hknows.shows (c := d) (by rw [hph]; rfl)
      exact ⟨hshows, hknows.replaced (by rw [hph]; rfl), le_rfl⟩
    · rw [hsame]
      exact hknows
  | credentials username password =>
    simp only [AuthState.exec] at hx
    split at hx
    · cases hx
    · next huser =>
      obtain ⟨rfl, rfl⟩ := Prod.mk.inj (Option.some.inj hx)
      refine ⟨?_, h.turn hi rfl rfl rfl rfl rfl (fun _ _ _ hk ↦ hk) hknows hsucc⟩
      cases hu : c.user with
      | none => trivial
      | some user =>
        intro hempty
        rw [hu] at huser
        exact huser (decide_eq_true hempty)
  | setRevoked jti ttl_sec =>
    obtain ⟨hr, rfl⟩ := Prod.mk.inj (Option.some.inj hx)
    rw [c.reply_of_answered hc] at hr
    rw [if_pos (c.acts_of_answered hc)]
    refine ⟨hr.symm, h.turn hi rfl rfl rfl rfl rfl (fun _ _ _ hk ↦ hk) ?_ hsucc⟩
    have hk : s.Keeps (s.blacklist jti ttl_sec) := .of_eq rfl rfl rfl
    have hkept := hknows.keep hk le_rfl
    rcases AuthCall.nextPhase_setRevoked t.phase jti ttl_sec r with ⟨d, now, hph, hnext⟩ | hsame
    · rw [hnext]
      have hshows := hkept.shows (c := d) (by rw [hph]; rfl)
      exact ⟨hshows, hkept.replaced (by rw [hph]; rfl)⟩
    · rw [hsame]
      exact hkept
  | getRevoked jti =>
    obtain ⟨d, hph, -⟩ := ha
    obtain ⟨hr, rfl⟩ := Prod.mk.inj (Option.some.inj hx)
    rw [c.reply_of_answered hc] at hr
    refine ⟨fun hthrown ↦ ?_, ?_⟩
    · rw [hthrown] at hr
      cases hr
    have hshows : t.req.Shows lib s d := hknows.shows (by rw [hph]; rfl)
    obtain ⟨req, phase, held⟩ := t
    obtain rfl : phase = .verified d := hph
    have hknows' (s' : AuthState) (hk : s.Keeps s') :
        ((authContract cfg).next ⟨req, .verified d, held⟩ (getRevoked jti) r).Knows lib s' := by
      show AuthCall.Knows lib s' ⟨req, ite _ _ _, held⟩
      split <;> exact AuthCall.shows_keep hk hshows
    split
    · exact h.turn hi rfl rfl rfl rfl rfl (fun _ _ _ hk ↦ hk)
        (hknows' s (.of_eq rfl rfl rfl)) hsucc
    · exact h.turn hi rfl rfl rfl rfl rfl (fun _ _ _ hk ↦ hk)
        (hknows' _ (.of_eq rfl rfl rfl)) hsucc
  | setChain jti ttl_sec =>
    obtain ⟨d, hph, -⟩ := ha
    obtain ⟨hr, rfl⟩ := Prod.mk.inj (Option.some.inj hx)
    rw [c.reply_of_answered hc] at hr
    refine ⟨fun hthrown ↦ ?_, ?_⟩
    · rw [hthrown] at hr
      cases hr
    have hshows : t.req.Shows lib s d := hknows.shows (by rw [hph]; rfl)
    have hput : d.jti ∈ s.put := hknows.put (by rw [hph]; rfl)
    obtain ⟨req, phase, held⟩ := t
    obtain rfl : phase = .matched d := hph
    have hknows' (s' : AuthState) (hk : s.Keeps s') :
        ((authContract cfg).next ⟨req, .matched d, held⟩ (setChain jti ttl_sec) r).Knows lib
          s' := by
      show AuthCall.Knows lib s' ⟨req, ite _ _ _, held⟩
      split
      · exact AuthCall.shows_keep hk hshows
      · exact ⟨AuthCall.shows_keep hk hshows, hk.put _ hput⟩
    split
    · exact h.turn hi rfl rfl rfl rfl rfl (fun _ _ _ hk ↦ hk)
        (hknows' _ (.of_eq rfl rfl rfl)) hsucc
    · exact h.turn hi rfl rfl rfl rfl rfl (fun _ _ _ hk ↦ hk)
        (hknows' s (.of_eq rfl rfl rfl)) hsucc

/-! ### The events -/

/-- A thread that is about to exchange a token is gone. -/
theorem AuthInv.fail (h : AuthInv cfg lib ts s) (hi : ts[i]? = some t)
    (hflying : t.phase.flying ≠ none) : AuthInv cfg lib (ts.set i { t with phase := .failed }) s := by
  refine h.turn hi rfl rfl rfl rfl rfl (fun _ _ _ hk ↦ hk) trivial ?_
  rintro (hlogin | hleft | ⟨d, hwon⟩)
  · exact .inl hlogin
  · rw [hleft] at hflying
    exact absurd rfl hflying
  · rw [hwon] at hflying
    exact absurd rfl hflying

/-- A request arrives. -/
theorem AuthInv.arrive (h : AuthInv cfg lib ts s) (req : AuthReq) :
    AuthInv cfg lib (ts ++ [⟨req, .start, []⟩]) { s with requests := s.requests ++ [req] } where
  requests := by
    show s.requests ++ [req] = _
    rw [h.requests, List.map_append]
    rfl
  knows j u hu := by
    rcases Pool.getElem?_append_cases hu with ⟨-, rfl⟩ | ⟨-, hu⟩
    · trivial
    · exact (h.knows j u hu).keep (.of_eq rfl rfl rfl) le_rfl
  active := h.active
  issued := h.issued
  signed := h.signed
  held j u hu v hv := by
    rcases Pool.getElem?_append_cases hu with ⟨-, rfl⟩ | ⟨-, hu⟩
    · exact absurd hv List.not_mem_nil
    · exact h.held j u hu v hv
  held_one j k u w hu hw v hv hv' := by
    rcases Pool.getElem?_append_cases hu with ⟨-, rfl⟩ | ⟨-, hu⟩
    · exact absurd hv List.not_mem_nil
    rcases Pool.getElem?_append_cases hw with ⟨-, rfl⟩ | ⟨-, hw⟩
    · exact absurd hv' List.not_mem_nil
    · exact h.held_one j k u w hu hw v hv hv'
  answered j rsp hj := by
    obtain ⟨u, hu, hdone⟩ := h.answered j rsp hj
    exact ⟨u, Pool.getElem?_append_of_some hu, hdone⟩

/-- Time passes. -/
theorem AuthInv.tick (h : AuthInv cfg lib ts s) (n : ℕ) :
    AuthInv cfg lib ts { s with now := s.now + n } := by
  have hnow : s.now ≤ s.now + n := by omega
  exact
    { requests := h.requests
      knows := fun j u hu ↦ (h.knows j u hu).keep (.of_eq rfl rfl rfl) hnow
      active := h.active
      issued := h.issued
      signed := fun v c hv ↦ (h.signed v c hv).later hnow
      held := h.held
      held_one := h.held_one
      answered := h.answered }

/-- What an event makes of the calls and of the keys. -/
inductive AuthEvent (ts : List AuthCall) (s : AuthState) :
    AuthEv → List AuthCall → AuthState → Prop
  | arrive {e : AuthEv} (req : AuthReq) (hreq : ∀ ctx, req = .logout ctx → s.Admits ctx) :
    AuthEvent ts s e (ts ++ [⟨req, .start, []⟩]) { s with requests := s.requests ++ [req] }
  | tick (n : ℕ) : AuthEvent ts s (.tick n) ts { s with now := s.now + n }
  | gone (i : ℕ) : AuthEvent ts s (.crash i) ts s
  | fail {i : ℕ} {t : AuthCall} (hi : ts[i]? = some t) (hflying : t.phase.flying ≠ none) :
    AuthEvent ts s (.crash i) (ts.set i { t with phase := .failed }) s

theorem AuthInv.event {e : AuthEv} {ts' : List AuthCall} (h : AuthInv cfg lib ts s)
    (he : AuthEvent ts s e ts' s') : AuthInv cfg lib ts' s' := by
  cases he with
  | arrive req hreq => exact h.arrive req
  | tick n => exact h.tick n
  | gone i => exact h
  | fail hi hflying => exact h.fail hi hflying

/-- The calls that have finished are not about to exchange a token. -/
abbrev AuthPool.Meets (cfg : JwtConfig) (ts : List AuthCall) (p : AuthPool) : Prop :=
  Pool.Meets (authContract cfg) (fun t ↦ t.phase.flying = none) ts p

/-- An event of the machine is one of these. -/
theorem authEvent_of_env {p p' : AuthPool} {e : AuthEv} (hm : p.Meets cfg ts)
    (hx : AuthState.env cfg e p = some p') :
    ∃ ts', AuthEvent ts p.shared e ts' p'.shared ∧ p'.Meets cfg ts' := by
  have harrive {req : AuthReq} {q : AuthM Unit}
      (hreq : ∀ ctx, req = .logout ctx → p.shared.Admits ctx)
      (hq : q.Meets (authContract cfg) ⟨req, .start, []⟩ fun t _ ↦ t.phase.flying = none) :
      ∃ ts', AuthEvent ts p.shared e ts' (AuthState.arrive req q p).shared ∧
        (AuthState.arrive req q p).Meets cfg ts' :=
    ⟨_, .arrive req hreq, Pool.Meets.spawn hm hq _⟩
  cases e with
  | login req =>
    obtain rfl := Option.some.inj hx
    exact harrive (fun ctx h ↦ by cases h) (Login_meets req)
  | refresh token =>
    obtain rfl := Option.some.inj hx
    exact harrive (fun ctx h ↦ by cases h) (RefreshToken_meets token)
  | logout ctx =>
    simp only [AuthState.env] at hx
    split at hx
    · next hadmits =>
      obtain rfl := Option.some.inj hx
      refine harrive (fun ctx' h ↦ ?_) (Logout_meets ctx)
      obtain rfl := AuthReq.logout.inj h
      exact hadmits
    · cases hx
  | tick n =>
    obtain rfl := Option.some.inj hx
    exact ⟨ts, .tick n, hm⟩
  | crash i =>
    obtain rfl := Option.some.inj hx
    cases hi : ts[i]? with
    | none =>
      have hlen : p.threads.length ≤ i := by
        rw [Pool.Meets.length_eq hm]
        exact List.getElem?_eq_none_iff.1 hi
      refine ⟨ts, .gone i, ?_⟩
      rw [List.set_eq_of_length_le hlen]
      exact hm
    | some t =>
      by_cases hflying : t.phase.flying = none
      · refine ⟨ts, .gone i, ?_⟩
        have hset := Pool.Meets.set hm i (q := .ret ()) hflying p.shared
        obtain ⟨hlt, rfl⟩ := List.getElem?_eq_some_iff.1 hi
        rwa [List.set_getElem_self] at hset
      · have hq : (Prog.ret () : AuthM Unit).Meets (authContract cfg) { t with phase := .failed }
            fun t _ ↦ t.phase.flying = none := rfl
        exact ⟨_, .fail hi hflying, Pool.Meets.set hm i hq _⟩

/-- The claims of a request that has succeeded, with those of its token. -/
theorem AuthInv.won {token : String} (h : AuthInv cfg lib ts s) (hi : s.Presents i token)
    (hs : s.Succeeds i) :
    ∃ t c, ts[i]? = some t ∧ t.phase = .won c ∧ lib.reads token = some c.toJwtClaims := by
  obtain ⟨rsp, hrsp⟩ := hs
  obtain ⟨t, ht, hsucc⟩ := h.answered i rsp hrsp
  have hreq : t.req = .refresh token := by
    rw [AuthState.Presents, h.requests, List.getElem?_map, ht, Option.map_some] at hi
    exact Option.some.inj hi
  have hknows := h.knows i t ht
  rcases hsucc with ⟨req, hlogin⟩ | hleft | ⟨c, hwon⟩
  · rw [hreq] at hlogin
    cases hlogin
  · rw [AuthCall.Knows, hleft] at hknows
    obtain ⟨ctx, hctx⟩ := hknows
    rw [hreq] at hctx
    cases hctx
  · refine ⟨t, c, ht, hwon, ?_⟩
    have hshows := hknows.shows (c := c) (by rw [hwon]; rfl)
    obtain ⟨token', hreq', hreads⟩ := hshows.token
    rw [hreq] at hreq'
    obtain rfl := AuthReq.refresh.inj hreq'
    exact hreads

/-- A `Logout` that has succeeded has come to its end. -/
theorem AuthInv.left {ctx : AuthContext} (h : AuthInv cfg lib ts s)
    (hi : s.requests[i]? = some (.logout ctx)) (hs : s.Succeeds i) :
    ∃ t, ts[i]? = some t ∧ t.req = .logout ctx ∧ t.phase = .left := by
  obtain ⟨rsp, hrsp⟩ := hs
  obtain ⟨t, ht, hsucc⟩ := h.answered i rsp hrsp
  have hreq : t.req = .logout ctx := by
    rw [h.requests, List.getElem?_map, ht, Option.map_some] at hi
    exact Option.some.inj hi
  rcases hsucc with ⟨req, hlogin⟩ | hleft | ⟨c, hwon⟩
  · rw [hreq] at hlogin
    cases hlogin
  · exact ⟨t, ht, hreq, hleft⟩
  · obtain ⟨token, htoken, -⟩ := ((h.knows i t ht).shows (c := c) (by rw [hwon]; rfl)).token
    rw [hreq] at htoken
    cases htoken

theorem authInv_fresh (hs : s.Fresh) : AuthInv cfg lib [] s where
  requests := hs.requests
  knows _ _ h := absurd h (by simp)
  active k v e h := by
    rw [hs.active] at h
    cases h
  issued v h := by
    rw [hs.put] at h
    exact absurd h List.not_mem_nil
  signed v c h := by
    rw [hs.tokens] at h
    cases h
  held _ _ h := absurd h (by simp)
  held_one _ _ _ _ h := absurd h (by simp)
  answered i rsp h := by
    rw [hs.answers] at h
    exact absurd h List.not_mem_nil

end Steps

/-! ### Runs -/

/-- The invariant, with another one beside it. -/
def AuthInv.With (cfg : JwtConfig) (lib : JwtLib) (Inv : List AuthCall → AuthState → Prop)
    (ts : List AuthCall) (s : AuthState) : Prop :=
  AuthInv cfg lib ts s ∧ Inv ts s

/-- **The rule for the identity service**, in runs in which no command of Redis throws: what every
call and every event keeps, where calls and keys agree, is kept by a run. -/
theorem auth_invariant {cfg : JwtConfig} {lib : JwtLib}
    {G : Machine.Guard AuthOp AuthOp.Res AuthState AuthChoice AuthEv}
    {I : List AuthCall → AuthState → Prop} {ts₀ : List AuthCall} {p₀ p : AuthPool}
    (hr : (identityService cfg lib).Reach G p₀ p)
    (hG : ∀ i o (c : AuthChoice) s, G.onOp i o c s → c.fault = false)
    (h₀ : AuthInv cfg lib ts₀ p₀.shared) (hI : I ts₀ p₀.shared) (hm : p₀.Meets cfg ts₀)
    (hcall : ∀ {ts s i t o c r s'}, AuthInv cfg lib ts s → I ts s → ts[i]? = some t →
      t.allowed cfg o → G.onOp i o c s → s.exec cfg lib i o c = some (r, s') →
      I (ts.set i ((authContract cfg).next t o r)) s')
    (hevent : ∀ {ts ts' s' e} {p : AuthPool}, AuthInv cfg lib ts p.shared → I ts p.shared →
      p.Meets cfg ts → G.onEv e p → AuthEvent ts p.shared e ts' s' → I ts' s') :
    ∃ ts, AuthInv cfg lib ts p.shared ∧ I ts p.shared ∧ p.Meets cfg ts := by
  obtain ⟨ts, h, hm'⟩ : ∃ ts, AuthInv.With cfg lib I ts p.shared ∧ p.Meets cfg ts := by
    refine Machine.invariant hr ⟨ts₀, ⟨h₀, hI⟩, hm⟩ ?_ ?_
    · intro ts s i t o c r s' h hi ha hop hx
      obtain ⟨hadmits, hinv⟩ := authInv_call h.1 hi ha (hG i o c s hop) hx
      exact ⟨hadmits, hinv, hcall h.1 h.2 hi ha hop hx⟩
    · intro ts p e p' h hm hev hx
      obtain ⟨ts', he, hm'⟩ := authEvent_of_env hm hx
      exact ⟨ts', ⟨h.1.event he, hevent h.1 h.2 hm hev he⟩, hm'⟩
  exact ⟨ts, h.1, h.2, hm'⟩

end ChatNow
