import ChatNow.Identity.Replay

/-!
# A token that has been logged out

`Logout` puts the access token with which it was called on the blacklist, for as long as an access
token lives. Nobody takes it from there before it has expired: whatever else is put on the blacklist
are refresh tokens, and the access tokens of other calls of `Logout`, each for its full time. This
is `logout_bars_token`, and holds in every run in which no command of Redis throws.

A contract of its own (`revokeContract`) follows what a call puts on the blacklist and where it has
the id from.
-/

namespace ChatNow

open Prog AuthOp

/-! ### The contract -/

/-- A call, as the blacklist sees it. -/
structure RevokeCall where
  req : AuthReq
  /-- The refresh tokens that it has issued. -/
  issued : List String := []
  /-- The refresh tokens that it has found, in its request or under a refresh key. -/
  found : List String := []
  /-- It has put the access token of its `Logout` on the blacklist. -/
  barred : Bool := false

namespace RevokeCall

variable (cfg : JwtConfig) (t : RevokeCall)

/-- What the call may do. -/
def allowed : AuthOp → Prop
  | verify _ require_refresh => require_refresh = true
  | setRevoked jti ttl_sec =>
    jti ∈ t.found ∨ ∃ ctx, t.req = .logout ctx ∧ jti = ctx.jwt_jti ∧ ttl_sec = cfg.access_ttl_sec
  | setActive _ _ jti _ => jti ∈ t.issued
  | respond (.ok _) => ∀ ctx, t.req = .logout ctx → t.barred = true
  | _ => True

/-- What the call knows after an answer. -/
def next : (o : AuthOp) → o.Res → RevokeCall
  | verify _ _, .ok c => { t with found := c.jti :: t.found }
  | issue _ _ true, (jti, _) => { t with issued := jti :: t.issued }
  | getActive _ _, .ok (some jti) => { t with found := jti :: t.found }
  | setRevoked jti _, _ =>
    match t.req with
    | .logout ctx => { t with barred := t.barred || jti = ctx.jwt_jti }
    | _ => t
  | _, _ => t

/-- What a call knows it does not forget. -/
structure Grows (t t' : RevokeCall) : Prop where
  req : t'.req = t.req
  issued : ∀ v ∈ t.issued, v ∈ t'.issued
  found : ∀ v ∈ t.found, v ∈ t'.found
  barred : t.barred = true → t'.barred = true

variable {t}

theorem Grows.refl (t : RevokeCall) : t.Grows t := ⟨rfl, fun _ h ↦ h, fun _ h ↦ h, fun h ↦ h⟩

theorem Grows.trans {t' t'' : RevokeCall} (h : t.Grows t') (h' : t'.Grows t'') : t.Grows t'' where
  req := h'.req.trans h.req
  issued v hv := h'.issued v (h.issued v hv)
  found v hv := h'.found v (h.found v hv)
  barred hb := h'.barred (h.barred hb)

theorem grows_next (t : RevokeCall) (o : AuthOp) (r : o.Res) : t.Grows (t.next o r) := by
  cases o with
  | verify token require_refresh =>
    cases r with
    | ok c => exact { Grows.refl t with found := fun v hv ↦ List.mem_cons_of_mem _ hv }
    | error e => exact .refl t
  | issue uid did is_refresh =>
    cases is_refresh with
    | true => exact { Grows.refl t with issued := fun v hv ↦ List.mem_cons_of_mem _ hv }
    | false => exact .refl t
  | getActive uid did =>
    rcases r with (_ | v) | _
    · exact .refl t
    · exact { Grows.refl t with found := fun v hv ↦ List.mem_cons_of_mem _ hv }
    · exact .refl t
  | setRevoked jti ttl_sec =>
    simp only [next]
    split
    · exact { Grows.refl t with barred := fun hb ↦ by rw [hb, Bool.true_or] }
    · exact .refl t
  | _ => exact .refl t

end RevokeCall

/-- What a call of the identity service may put on the blacklist. -/
def revokeContract (cfg : JwtConfig) : Contract AuthOp AuthOp.Res RevokeCall where
  allowed t o := t.allowed cfg o
  admits _ _ _ := True
  next t o r := t.next o r

section Meets

variable {cfg : JwtConfig} {t : RevokeCall}

/-- A call that keeps to the contract knows at the end what it knew. -/
theorem grows_of_meets {α : Type} {q : AuthM α}
    (h : q.Meets (revokeContract cfg) t fun _ _ ↦ True) :
    q.Meets (revokeContract cfg) t fun t' _ ↦ t.Grows t' :=
  (h.keeps (I := fun t' ↦ t.Grows t') (fun t' o r ht ↦ ht.trans (t'.grows_next o r))
    (.refl t)).mono fun _ _ ht ↦ ht.2

/-- A refresh token that has been found may be put on the blacklist. -/
theorem revoke_revokes {jti : String} (hjti : jti ∈ t.found) (ttl_sec : ℤ) :
    (JwtStore.revoke jti ttl_sec).Meets (revokeContract cfg) t fun _ _ ↦ True := by
  unfold JwtStore.revoke
  split
  · trivial
  · exact meets_op_bind.2 ⟨.inl hjti, fun _ _ ↦ trivial⟩

/-- And one that has been issued under the key of its device. -/
theorem put_active_revokes {jti : String} (hjti : jti ∈ t.issued) (uid did : String)
    (ttl_sec : ℤ) :
    (JwtStore.put_active_refresh uid did jti ttl_sec).Meets (revokeContract cfg) t
      fun _ _ ↦ True := by
  unfold JwtStore.put_active_refresh
  split
  · trivial
  · exact meets_op_bind.2 ⟨hjti, fun _ _ ↦ trivial⟩

theorem is_revoked_revokes (jti : String) :
    (JwtStore.is_revoked jti).Meets (revokeContract cfg) t fun _ _ ↦ True := by
  unfold JwtStore.is_revoked
  split
  · trivial
  · refine meets_op_bind.2 ⟨trivial, fun r _ ↦ ?_⟩
    cases r <;> trivial

theorem get_active_revokes (uid did : String) :
    (JwtStore.get_active_refresh uid did).Meets (revokeContract cfg) t
      fun t' v ↦ v = "" ∨ v ∈ t'.found := by
  refine meets_op_bind.2 ⟨trivial, fun r _ ↦ ?_⟩
  rcases r with (_ | v) | _
  · exact .inl rfl
  · exact .inr List.mem_cons_self
  · exact .inl rfl

theorem reject_reused_revokes {c : TokenClaims} (hjti : c.jti ∈ t.found) (message : String) :
    (reject_reused cfg c message).Meets (revokeContract cfg) t fun _ _ ↦ True :=
  (revoke_revokes hjti _).bind fun _ _ _ ↦ meets_op_bind.2 ⟨trivial, fun _ _ ↦ trivial⟩

theorem rotate_revokes {new_jti : String} (hnew : new_jti ∈ t.issued) (uid did old_jti : String)
    (ttl_sec : ℤ) :
    (JwtStore.rotate_refresh_or_detect_reuse uid did old_jti new_jti ttl_sec).Meets
      (revokeContract cfg) t fun _ _ ↦ True := by
  refine meets_op_bind.2 ⟨trivial, fun r _ ↦ ?_⟩
  have hput : Prog.Meets (revokeContract cfg) (JwtStore.put_active_refresh uid did new_jti ttl_sec
      >>= fun _ ↦ pure JwtStore.RotateResult.kOk) t fun _ _ ↦ True :=
    (put_active_revokes hnew uid did ttl_sec).bind fun _ _ _ ↦ trivial
  rcases r with (_ | _) | _
  · trivial
  · exact hput
  · exact hput

theorem exchange_revokes {c : TokenClaims} (hjti : c.jti ∈ t.found) :
    (exchange cfg c).Meets (revokeContract cfg) t fun _ _ ↦ True := by
  refine meets_op_bind.2 ⟨trivial, fun access _ ↦ meets_op_bind.2 ⟨trivial, ?_⟩⟩
  rintro ⟨jti, text⟩ -
  have hrotate : (JwtStore.rotate_refresh_or_detect_reuse c.sub c.did c.jti jti
      cfg.refresh_ttl_sec).Meets (revokeContract cfg) { t with issued := jti :: t.issued }
      fun _ _ ↦ True := rotate_revokes List.mem_cons_self ..
  refine Meets.bind (grows_of_meets hrotate) fun t' r ht' ↦ ?_
  have hfound : c.jti ∈ t'.found := ht'.found _ hjti
  cases r with
  | kReuseDetected => exact reject_reused_revokes hfound _
  | kOk =>
    exact meets_op_bind.2 ⟨trivial, fun now _ ↦
      (revoke_revokes hfound _).bind fun _ _ _ ↦ trivial⟩

theorem refresh_body_revokes (token : String) :
    (refresh_body cfg token).Meets (revokeContract cfg) { req := .refresh token }
      fun _ _ ↦ True := by
  refine meets_op_bind.2 ⟨rfl, fun r _ ↦ ?_⟩
  cases r with
  | error e => cases e <;> trivial
  | ok c =>
    have hfound : c.jti ∈ (RevokeCall.mk (.refresh token) [] [c.jti] false).found :=
      List.mem_cons_self
    refine (grows_of_meets (is_revoked_revokes c.jti)).bind fun t there ht ↦ ?_
    cases there with
    | true => trivial
    | false =>
      have hget : (JwtStore.get_active_refresh c.sub c.did).Meets (revokeContract cfg) t
          fun _ _ ↦ True := (get_active_revokes ..).mono fun _ _ _ ↦ trivial
      refine (grows_of_meets hget).bind fun t' active ht' ↦ ?_
      have hfound' : c.jti ∈ t'.found := ht'.found _ (ht.found _ hfound)
      show Prog.Meets _ (if active ≠ c.jti then _ else _) _ _
      split
      · exact reject_reused_revokes hfound' _
      · exact exchange_revokes hfound'

/-- A call that is no `Logout` may answer. -/
theorem respond_revokes {q : AuthM (Except ServiceError AuthRsp)}
    (h : q.Meets (revokeContract cfg) t fun _ _ ↦ True) (hreq : ∀ ctx, t.req ≠ .logout ctx) :
    (q >>= fun rsp ↦ op (respond rsp)).Meets (revokeContract cfg) t fun _ _ ↦ True := by
  refine (grows_of_meets h).bind fun t' rsp ht' ↦ ⟨?_, fun _ _ ↦ trivial⟩
  cases rsp with
  | error e => trivial
  | ok rsp =>
    intro ctx hctx
    exact absurd (ht'.req.symm.trans hctx) (hreq ctx)

/-- `RefreshToken` keeps to the contract. -/
theorem RefreshToken_revokes (token : String) :
    (RefreshToken cfg token).Meets (revokeContract cfg) { req := .refresh token }
      fun _ _ ↦ True :=
  respond_revokes (refresh_body_revokes token) fun _ ↦ AuthReq.noConfusion

theorem login_user_revokes (user_id nickname device_id : String) :
    (login_user cfg user_id nickname device_id).Meets (revokeContract cfg) t fun _ _ ↦ True := by
  refine meets_op_bind.2 ⟨trivial, fun access _ ↦ meets_op_bind.2 ⟨trivial, ?_⟩⟩
  rintro ⟨jti, text⟩ -
  have hput : (JwtStore.put_active_refresh user_id device_id jti cfg.refresh_ttl_sec).Meets
      (revokeContract cfg) { t with issued := jti :: t.issued } fun _ _ ↦ True :=
    put_active_revokes List.mem_cons_self ..
  exact hput.bind fun _ _ _ ↦ trivial

/-- `Login` keeps to the contract. -/
theorem Login_revokes (req : LoginReq) :
    (Login cfg req).Meets (revokeContract cfg) { req := .login req } fun _ _ ↦ True := by
  refine respond_revokes ?_ fun _ ↦ AuthReq.noConfusion
  unfold login_body
  split
  · trivial
  · trivial
  · refine meets_op_bind.2 ⟨trivial, fun r _ ↦ ?_⟩
    cases r with
    | none => trivial
    | some user => exact (login_user_revokes ..).bind fun _ _ _ ↦ trivial

/-- `Logout` keeps to the contract: it answers when it has put its token on the blacklist. -/
theorem Logout_revokes {ctx : AuthContext} (hjti : ctx.jwt_jti ≠ "") :
    (Logout cfg ctx).Meets (revokeContract cfg) { req := .logout ctx } fun _ _ ↦ True := by
  have hbody : (logout_body cfg ctx).Meets (revokeContract cfg) { req := .logout ctx }
      fun t _ ↦ t.barred = true := by
    have hpos : ¬ (ctx.jwt_jti = "" ∨ cfg.access_ttl_sec ≤ 0) := by
      have httl := cfg.access_ttl_pos
      rintro (h | h)
      · exact hjti h
      · omega
    unfold logout_body JwtStore.revoke
    rw [if_neg hpos]
    refine meets_op_bind.2 ⟨.inr ⟨ctx, rfl, rfl, rfl⟩, fun _ _ ↦ ?_⟩
    have hbarred : (RevokeCall.next { req := .logout ctx }
        (setRevoked ctx.jwt_jti cfg.access_ttl_sec) (.ok ())).barred = true := by
      simp [RevokeCall.next]
    refine ((get_active_revokes ctx.user_id ctx.device_id).keeps (I := fun t ↦ t.barred = true)
      (fun t o r ht ↦ (t.grows_next o r).barred ht) hbarred).bind fun t v ht ↦ ?_
    show Prog.Meets _ (if v ≠ "" then _ else _) _ _
    split
    · next hv =>
      have hrevoke : (JwtStore.revoke v cfg.refresh_ttl_sec).Meets (revokeContract cfg) t
          fun _ _ ↦ True := revoke_revokes (ht.1.resolve_left hv) _
      refine (grows_of_meets hrevoke).bind fun t' _ ht' ↦ ?_
      exact meets_op_bind.2 ⟨trivial, fun _ _ ↦ ht'.barred ht.2⟩
    · exact ht.2
  exact hbody.bind fun t _ ht ↦ ⟨fun _ _ ↦ ht, fun _ _ ↦ trivial⟩

end Meets

/-! ### The invariant -/

/-- The id is that of a refresh token. -/
def AuthState.Refreshes (s : AuthState) (jti : String) : Prop :=
  ∃ c, s.tokens.find jti = some c ∧ c.is_refresh = true

/-- What is on the blacklist, and what the calls know of it. -/
structure RevokeInv (cfg : JwtConfig) (ts : List RevokeCall) (s : AuthState) : Prop where
  requests : s.requests = ts.map (·.req)
  named : ∀ v c, s.tokens.find v = some c → c.jti ≠ ""
  signed : ∀ v c, s.tokens.find v = some c → c.is_refresh = false →
    c.exp_sec ≤ s.now + cfg.access_ttl_sec
  active : ∀ k v e, s.active k = some (v, e) → s.Refreshes v
  issued : ∀ (i : ℕ) t, ts[i]? = some t → ∀ v ∈ t.issued, s.Refreshes v
  found : ∀ (i : ℕ) t, ts[i]? = some t → ∀ v ∈ t.found, s.Refreshes v
  admits : ∀ (i : ℕ) t ctx, ts[i]? = some t → t.req = .logout ctx → s.Admits ctx
  barred : ∀ (i : ℕ) t ctx c, ts[i]? = some t → t.req = .logout ctx → t.barred = true →
    s.tokens.find ctx.jwt_jti = some c → s.Barred c
  answered : ∀ i rsp, (i, .ok rsp) ∈ s.answers →
    ∃ t, ts[i]? = some t ∧ ∀ ctx, t.req = .logout ctx → t.barred = true

section Steps

variable {cfg : JwtConfig} {lib : JwtLib} {ts : List RevokeCall} {s s' : AuthState} {i : ℕ}
  {t t' : RevokeCall} {c : AuthChoice}

/-- What a step leaves of the tokens and of the blacklist. -/
structure AuthState.Guards (s s' : AuthState) : Prop where
  now : s.now ≤ s'.now
  tokens : ∀ v c, s.tokens.find v = some c → s'.tokens.find v = some c
  barred : ∀ c, s.tokens.find c.jti = some c → c.is_refresh = false → s.Barred c → s'.Barred c

theorem AuthState.Guards.refreshes {v : String} (hg : s.Guards s') (h : s.Refreshes v) :
    s'.Refreshes v := by
  obtain ⟨c, hc, hrefresh⟩ := h
  exact ⟨c, hg.tokens _ _ hc, hrefresh⟩

theorem AuthState.Guards.admits {ctx : AuthContext} (hg : s.Guards s') (h : s.Admits ctx) :
    s'.Admits ctx := by
  obtain ⟨c, hc, hrest⟩ := h
  exact ⟨c, hg.tokens _ _ hc, hrest⟩

/-- A token is kept under its own id. -/
theorem AuthState.find_own {v : String} {d : TokenClaims} (h : s.tokens.find v = some d) :
    s.tokens.find d.jti = some d := by
  have hjti : d.token_id = v := Table.key_of_find h
  rwa [show d.jti = v from hjti]

/-- A token that has been barred for its `Logout` stays so. -/
theorem RevokeInv.stays {ctx : AuthContext} {d : TokenClaims} (h : RevokeInv cfg ts s)
    (hi : ts[i]? = some t) (hreq : t.req = .logout ctx) (hbar : t.barred = true)
    (hg : s.Guards s') (hd : s'.tokens.find ctx.jwt_jti = some d) : s'.Barred d := by
  obtain ⟨e, he, haccess, -⟩ := h.admits i t ctx hi hreq
  obtain rfl := Option.some.inj ((hg.tokens _ _ he).symm.trans hd)
  exact hg.barred e (AuthState.find_own he) haccess (h.barred i t ctx e hi hreq hbar he)

/-- A step of one thread. -/
theorem RevokeInv.move (h : RevokeInv cfg ts s) (hi : ts[i]? = some t) (hgrows : t.Grows t')
    (hrequests : s'.requests = s.requests) (hg : s.Guards s')
    (hnew : ∀ v c, s'.tokens.find v = some c → s.tokens.find v = some c ∨
      c.jti ≠ "" ∧ (c.is_refresh = false → c.exp_sec ≤ s'.now + cfg.access_ttl_sec))
    (hactive : ∀ k v e, s'.active k = some (v, e) → s'.Refreshes v)
    (hissued : ∀ v ∈ t'.issued, s'.Refreshes v) (hfound : ∀ v ∈ t'.found, s'.Refreshes v)
    (hbar : ∀ ctx c, t.req = .logout ctx → t'.barred = true → s'.tokens.find ctx.jwt_jti = some c →
      s'.Barred c)
    (hans : ∀ j rsp, (j, .ok rsp) ∈ s'.answers → (j, .ok rsp) ∈ s.answers ∨
      j = i ∧ ∀ ctx, t.req = .logout ctx → t'.barred = true) :
    RevokeInv cfg (ts.set i t') s' where
  requests := by
    rw [hrequests, h.requests, Pool.map_set_eq hi hgrows.req]
  named v d hd := by
    rcases hnew v d hd with hold | hsigned
    · exact h.named v d hold
    · exact hsigned.1
  signed v d hd haccess := by
    rcases hnew v d hd with hold | hsigned
    · have hexp := h.signed v d hold haccess
      have hnow := hg.now
      omega
    · exact hsigned.2 haccess
  active := hactive
  issued j u hu v hv := by
    rcases Pool.getElem?_set_cases hu with ⟨-, rfl⟩ | ⟨-, hu'⟩
    · exact hissued v hv
    · exact hg.refreshes (h.issued j u hu' v hv)
  found j u hu v hv := by
    rcases Pool.getElem?_set_cases hu with ⟨-, rfl⟩ | ⟨-, hu'⟩
    · exact hfound v hv
    · exact hg.refreshes (h.found j u hu' v hv)
  admits j u ctx hu hreq := by
    rcases Pool.getElem?_set_cases hu with ⟨rfl, rfl⟩ | ⟨-, hu'⟩
    · exact hg.admits (h.admits j t ctx hi (hgrows.req ▸ hreq))
    · exact hg.admits (h.admits j u ctx hu' hreq)
  barred j u ctx d hu hreq hbarred hd := by
    rcases Pool.getElem?_set_cases hu with ⟨rfl, rfl⟩ | ⟨-, hu'⟩
    · exact hbar ctx d (hgrows.req ▸ hreq) hbarred hd
    · exact h.stays hu' hreq hbarred hg hd
  answered j rsp hj := by
    rcases hans j rsp hj with hold | ⟨rfl, hlogout⟩
    · obtain ⟨u, hu, hlogout⟩ := h.answered j rsp hold
      rcases eq_or_ne j i with rfl | hne
      · obtain rfl := Option.some.inj (hi.symm.trans hu)
        refine ⟨t', Pool.getElem?_set_self hi, fun ctx hctx ↦ hgrows.barred ?_⟩
        exact hlogout ctx (hgrows.req ▸ hctx)
      · refine ⟨u, ?_, hlogout⟩
        rw [List.getElem?_set_ne hne.symm]
        exact hu
    · exact ⟨t', Pool.getElem?_set_self hi, fun ctx hctx ↦ hlogout ctx (hgrows.req ▸ hctx)⟩

/-- A step that changes neither tokens nor refresh keys, and puts nothing on the blacklist. -/
theorem RevokeInv.quiet (h : RevokeInv cfg ts s) (hi : ts[i]? = some t) (hgrows : t.Grows t')
    (hrequests : s'.requests = s.requests) (hnow : s'.now = s.now) (htokens : s'.tokens = s.tokens)
    (hrevoked : s'.revoked = s.revoked) (hactive : s'.active = s.active)
    (hissued : t'.issued = t.issued) (hfound : ∀ v ∈ t'.found, v ∈ t.found ∨ s.Refreshes v)
    (hbarred : t'.barred = t.barred)
    (hans : ∀ j rsp, (j, .ok rsp) ∈ s'.answers → (j, .ok rsp) ∈ s.answers ∨
      j = i ∧ ∀ ctx, t.req = .logout ctx → t.barred = true) :
    RevokeInv cfg (ts.set i t') s' := by
  have hg : s.Guards s' := by
    refine ⟨le_of_eq hnow.symm, fun v d hd ↦ ?_, fun d _ _ hd ↦ ?_⟩
    · rw [htokens]
      exact hd
    · rw [AuthState.Barred, hnow, hrevoked]
      exact hd
  refine h.move hi hgrows hrequests hg (fun v d hd ↦ .inl ?_) (fun k v e hk ↦ ?_) (fun v hv ↦ ?_)
    (fun v hv ↦ ?_) (fun ctx d hreq hbar hd ↦ ?_) fun j rsp hj ↦ ?_
  · rwa [htokens] at hd
  · rw [hactive] at hk
    exact hg.refreshes (h.active k v e hk)
  · rw [hissued] at hv
    exact hg.refreshes (h.issued i t hi v hv)
  · rcases hfound v hv with hold | hnew
    · exact hg.refreshes (h.found i t hi v hold)
    · exact hg.refreshes hnew
  · exact h.stays hi hreq (hbarred ▸ hbar) hg hd
  · rw [hbarred]
    exact hans j rsp hj

/-- A token is put on the blacklist: a refresh token, or the access token of a `Logout` for as long
as it lives. -/
theorem revokeInv_setRevoked {jti : String} {ttl_sec : ℤ} {r : Reply Unit}
    (h : RevokeInv cfg ts s) (hi : ts[i]? = some t) (ha : t.allowed cfg (setRevoked jti ttl_sec))
    (hc : c.fault = false) (hx : s.exec cfg lib i (setRevoked jti ttl_sec) c = some (r, s')) :
    RevokeInv cfg (ts.set i (t.next (setRevoked jti ttl_sec) r)) s' := by
  obtain ⟨-, rfl⟩ := Prod.mk.inj (Option.some.inj hx)
  rw [if_pos (c.acts_of_answered hc)]
  have hcover {d : TokenClaims} (hd : s.tokens.find d.jti = some d) (haccess : d.is_refresh = false)
      (hjti : d.jti = jti) : (s.blacklist jti ttl_sec).Barred d := by
    rcases ha with hfound | ⟨ctx, -, -, rfl⟩
    · obtain ⟨e, he, hrefresh⟩ := h.found i t hi jti hfound
      rw [← hjti, hd] at he
      obtain rfl := Option.some.inj he
      rw [haccess] at hrefresh
      cases hrefresh
    · refine .inr ⟨s.now + cfg.access_ttl_sec, ?_, h.signed _ _ hd haccess⟩
      rw [hjti]
      exact Expiring.setEx_self ..
  have hg : s.Guards (s.blacklist jti ttl_sec) := by
    refine ⟨le_rfl, fun v d hd ↦ hd, fun d hd haccess hbar ↦ ?_⟩
    rcases eq_or_ne d.jti jti with hjti | hne
    · exact hcover hd haccess hjti
    · rcases hbar with hexp | ⟨e, he, hexp⟩
      · exact .inl hexp
      · refine .inr ⟨e, ?_, hexp⟩
        rw [← he]
        exact Expiring.setEx_ne _ _ _ _ hne
  have hsame : (t.next (setRevoked jti ttl_sec) r).issued = t.issued ∧
      (t.next (setRevoked jti ttl_sec) r).found = t.found := by
    simp only [RevokeCall.next]
    split <;> exact ⟨rfl, rfl⟩
  refine h.move hi (t.grows_next (setRevoked jti ttl_sec) r) rfl hg (fun v d hd ↦ .inl hd) h.active
    (fun v hv ↦ ?_)
    (fun v hv ↦ ?_) (fun ctx d hreq hbar hd ↦ ?_) fun j rsp hj ↦ .inl hj
  · exact h.issued i t hi v (hsame.1 ▸ hv)
  · exact h.found i t hi v (hsame.2 ▸ hv)
  · simp only [RevokeCall.next, hreq, Bool.or_eq_true, decide_eq_true_eq] at hbar
    rcases hbar with hold | rfl
    · exact h.stays hi hreq hold hg hd
    · obtain ⟨e, he, haccess, -⟩ := h.admits i t ctx hi hreq
      obtain rfl := Option.some.inj (he.symm.trans hd)
      have hjti : e.token_id = ctx.jwt_jti := Table.key_of_find he
      exact hcover (AuthState.find_own he) haccess hjti

/-- A new token. -/
theorem revokeInv_issue {uid did : String} {is_refresh : Bool} {r : String × String}
    (h : RevokeInv cfg ts s) (hi : ts[i]? = some t)
    (hx : s.exec cfg lib i (issue uid did is_refresh) c = some (r, s')) :
    RevokeInv cfg (ts.set i (t.next (issue uid did is_refresh) r)) s' := by
  have heffect := AuthState.effect_exec hx
  obtain ⟨rfl, hne, -, hnone, tokens, rfl, hfind⟩ := AuthState.addToken_spec hx
  have hg : s.Guards { s with tokens := tokens } := ⟨le_rfl, heffect.tokens, fun _ _ _ hd ↦ hd⟩
  refine h.move hi (t.grows_next _ _) rfl hg (fun v d hd ↦ ?_) (fun k v e hk ↦ ?_)
    (fun v hv ↦ ?_) (fun v hv ↦ ?_) (fun ctx d hreq hbar hd ↦ ?_) fun j rsp hj ↦ .inl hj
  · have hd' : (if c.jti = v then some (JwtCodec.sign_internal cfg s.now uid did c.jti is_refresh)
        else s.tokens.find v) = some d := (hfind v).symm.trans hd
    split at hd'
    · obtain rfl := Option.some.inj hd'
      refine .inr ⟨hne, fun haccess ↦ ?_⟩
      obtain rfl : is_refresh = false := haccess
      exact le_rfl
    · exact .inl hd'
  · exact hg.refreshes (h.active k v e hk)
  · cases is_refresh with
    | false => exact hg.refreshes (h.issued i t hi v hv)
    | true =>
      rcases List.mem_cons.1 hv with rfl | hold
      · refine ⟨_, (hfind _).trans (if_pos rfl), rfl⟩
      · exact hg.refreshes (h.issued i t hi v hold)
  · cases is_refresh <;> exact hg.refreshes (h.found i t hi v hv)
  · refine h.stays hi hreq ?_ hg hd
    cases is_refresh <;> exact hbar

/-- A refresh token is put under a refresh key. -/
theorem revokeInv_setActive {uid did jti : String} {ttl_sec : ℤ} {r : Reply Unit}
    (h : RevokeInv cfg ts s) (hi : ts[i]? = some t)
    (ha : t.allowed cfg (setActive uid did jti ttl_sec)) (hc : c.fault = false)
    (hx : s.exec cfg lib i (setActive uid did jti ttl_sec) c = some (r, s')) :
    RevokeInv cfg (ts.set i (t.next (setActive uid did jti ttl_sec) r)) s' := by
  obtain ⟨-, rfl⟩ := Prod.mk.inj (Option.some.inj hx)
  rw [if_pos (c.acts_of_answered hc)]
  have hg : s.Guards (s.activate (rt_key uid did) jti ttl_sec) :=
    ⟨le_rfl, fun _ _ hd ↦ hd, fun _ _ _ hd ↦ hd⟩
  refine h.move hi (t.grows_next (setActive uid did jti ttl_sec) r) rfl hg
    (fun v d hd ↦ .inl hd) (fun k v e hk ↦ ?_)
    (h.issued i t hi) (h.found i t hi) (fun ctx d hreq hbar hd ↦ h.stays hi hreq hbar hg hd)
    fun j rsp hj ↦ .inl hj
  rcases Expiring.setEx_cases hk with ⟨-, rfl, -⟩ | ⟨-, hold⟩
  · exact h.issued i t hi v ha
  · exact h.active k v e hold

/-- A refresh key is deleted. -/
theorem revokeInv_delActive {uid did : String} {r : Reply Unit} (h : RevokeInv cfg ts s)
    (hi : ts[i]? = some t) (hc : c.fault = false)
    (hx : s.exec cfg lib i (delActive uid did) c = some (r, s')) :
    RevokeInv cfg (ts.set i (t.next (delActive uid did) r)) s' := by
  obtain ⟨-, rfl⟩ := Prod.mk.inj (Option.some.inj hx)
  rw [if_pos (c.acts_of_answered hc)]
  have hg : s.Guards (s.deactivate i (rt_key uid did)) :=
    ⟨le_rfl, fun _ _ hd ↦ hd, fun _ _ _ hd ↦ hd⟩
  refine h.move hi (t.grows_next (delActive uid did) r) rfl hg (fun v d hd ↦ .inl hd)
    (fun k v e hk ↦ ?_)
    (h.issued i t hi) (h.found i t hi) (fun ctx d hreq hbar hd ↦ h.stays hi hreq hbar hg hd)
    fun j rsp hj ↦ .inl hj
  exact h.active k v e (Expiring.of_del hk).2

/-- **Every call of a thread** keeps the blacklist. -/
theorem revokeInv_call {o : AuthOp} {r : o.Res} (h : RevokeInv cfg ts s) (hi : ts[i]? = some t)
    (ha : t.allowed cfg o) (hc : c.fault = false) (hx : s.exec cfg lib i o c = some (r, s')) :
    RevokeInv cfg (ts.set i (t.next o r)) s' := by
  have hgrows := t.grows_next o r
  cases o with
  | setRevoked jti ttl_sec => exact revokeInv_setRevoked h hi ha hc hx
  | issue uid did is_refresh => exact revokeInv_issue h hi hx
  | setActive uid did jti ttl_sec => exact revokeInv_setActive h hi ha hc hx
  | delActive uid did => exact revokeInv_delActive h hi hc hx
  | clock =>
    obtain ⟨-, rfl⟩ := Prod.mk.inj (Option.some.inj hx)
    exact h.quiet hi hgrows rfl rfl rfl rfl rfl rfl (fun _ hv ↦ .inl hv) rfl fun _ _ hj ↦ .inl hj
  | credentials username password =>
    simp only [AuthState.exec] at hx
    split at hx
    · cases hx
    · obtain ⟨-, rfl⟩ := Prod.mk.inj (Option.some.inj hx)
      exact h.quiet hi hgrows rfl rfl rfl rfl rfl rfl (fun _ hv ↦ .inl hv) rfl
        fun _ _ hj ↦ .inl hj
  | verify token require_refresh =>
    obtain rfl : require_refresh = true := ha
    simp only [AuthState.exec] at hx
    split at hx
    · obtain ⟨rfl, rfl⟩ := Prod.mk.inj (Option.some.inj hx)
      exact h.quiet hi hgrows rfl rfl rfl rfl rfl rfl (fun _ hv ↦ .inl hv) rfl
        fun _ _ hj ↦ .inl hj
    · next d hd =>
      split at hx
      · next hfind =>
        obtain ⟨rfl, rfl⟩ := Prod.mk.inj (Option.some.inj hx)
        refine h.quiet hi hgrows rfl rfl rfl rfl rfl rfl (fun v hv ↦ ?_) rfl fun _ _ hj ↦ .inl hj
        rcases List.mem_cons.1 hv with rfl | hold
        · obtain ⟨-, -, -, -, -, -, hrefresh, -⟩ := JwtCodec.verify_ok hd
          exact .inr ⟨d, hfind, hrefresh⟩
        · exact .inl hold
      · cases hx
  | getRevoked jti =>
    obtain ⟨-, rfl⟩ := Prod.mk.inj (Option.some.inj hx)
    split <;>
    · exact h.quiet hi hgrows rfl rfl rfl rfl rfl rfl (fun _ hv ↦ .inl hv) rfl
        fun _ _ hj ↦ .inl hj
  | getActive uid did =>
    obtain ⟨hr, rfl⟩ := Prod.mk.inj (Option.some.inj hx)
    rw [c.reply_of_answered hc] at hr
    have hfound : ∀ v ∈ (t.next (getActive uid did) r).found, v ∈ t.found ∨ s.Refreshes v := by
      intro v hv
      cases hget : s.active.get s.now (rt_key uid did) with
      | none =>
        rw [hget] at hr
        obtain rfl := hr.symm
        exact .inl hv
      | some w =>
        rw [hget] at hr
        obtain rfl := hr.symm
        rcases List.mem_cons.1 hv with rfl | hold
        · obtain ⟨e, hk, -⟩ := s.active.get_eq_some.1 hget
          exact .inr (h.active _ v e hk)
        · exact .inl hold
    have hsame : (t.next (getActive uid did) r).issued = t.issued ∧
        (t.next (getActive uid did) r).barred = t.barred := by
      rcases r with (_ | _) | _ <;> exact ⟨rfl, rfl⟩
    split <;>
    · exact h.quiet hi hgrows rfl rfl rfl rfl rfl hsame.1 hfound hsame.2 fun _ _ hj ↦ .inl hj
  | setChain jti ttl_sec =>
    obtain ⟨-, rfl⟩ := Prod.mk.inj (Option.some.inj hx)
    split <;>
    · exact h.quiet hi hgrows rfl rfl rfl rfl rfl rfl (fun _ hv ↦ .inl hv) rfl
        fun _ _ hj ↦ .inl hj
  | respond rsp =>
    obtain ⟨-, rfl⟩ := Prod.mk.inj (Option.some.inj hx)
    refine h.quiet hi hgrows rfl rfl rfl rfl rfl rfl (fun _ hv ↦ .inl hv) rfl fun j rsp' hj ↦ ?_
    rcases List.mem_cons.1 hj with hnew | hold
    · obtain ⟨rfl, rfl⟩ := Prod.mk.inj hnew
      exact .inr ⟨rfl, ha⟩
    · exact .inl hold

theorem RevokeInv.arrive {req : AuthReq} (h : RevokeInv cfg ts s)
    (hreq : ∀ ctx, req = .logout ctx → s.Admits ctx) :
    RevokeInv cfg (ts ++ [{ req := req }]) { s with requests := s.requests ++ [req] } where
  requests := by
    rw [List.map_append, h.requests]
    rfl
  named := h.named
  signed := h.signed
  active := h.active
  issued j u hu v hv := by
    rcases Pool.getElem?_append_cases hu with ⟨-, rfl⟩ | ⟨-, hu'⟩
    · cases hv
    · exact h.issued j u hu' v hv
  found j u hu v hv := by
    rcases Pool.getElem?_append_cases hu with ⟨-, rfl⟩ | ⟨-, hu'⟩
    · cases hv
    · exact h.found j u hu' v hv
  admits j u ctx hu hctx := by
    rcases Pool.getElem?_append_cases hu with ⟨-, rfl⟩ | ⟨-, hu'⟩
    · exact hreq ctx hctx
    · exact h.admits j u ctx hu' hctx
  barred j u ctx d hu hctx hbar hd := by
    rcases Pool.getElem?_append_cases hu with ⟨-, rfl⟩ | ⟨-, hu'⟩
    · cases hbar
    · exact h.barred j u ctx d hu' hctx hbar hd
  answered j rsp hj := by
    obtain ⟨u, hu, hlogout⟩ := h.answered j rsp hj
    exact ⟨u, Pool.getElem?_append_of_some hu, hlogout⟩

theorem RevokeInv.tick (h : RevokeInv cfg ts s) (n : ℕ) :
    RevokeInv cfg ts { s with now := s.now + n } where
  requests := h.requests
  named := h.named
  signed v d hd haccess := by
    have hexp := h.signed v d hd haccess
    show d.exp_sec ≤ s.now + n + cfg.access_ttl_sec
    omega
  active := h.active
  issued := h.issued
  found := h.found
  admits := h.admits
  barred j u ctx d hu hctx hbar hd := by
    rcases h.barred j u ctx d hu hctx hbar hd with hexp | hkey
    · refine .inl ?_
      show d.exp_sec ≤ s.now + n
      omega
    · exact .inr hkey
  answered := h.answered

/-- The calls keep to the contract. -/
abbrev AuthPool.Revokes (cfg : JwtConfig) (ts : List RevokeCall) (p : AuthPool) : Prop :=
  Pool.Meets (revokeContract cfg) (fun _ ↦ True) ts p

/-- **Every event** keeps the blacklist. -/
theorem revokeInv_event {p p' : AuthPool} {e : AuthEv} (h : RevokeInv cfg ts p.shared)
    (hm : p.Revokes cfg ts) (hx : AuthState.env cfg e p = some p') :
    ∃ ts', RevokeInv cfg ts' p'.shared ∧ (∀ (j : ℕ) u, ts[j]? = some u → ts'[j]? = some u) ∧
      p'.shared.tokens = p.shared.tokens ∧ p'.Revokes cfg ts' := by
  cases e with
  | login req =>
    obtain rfl := Option.some.inj hx
    have hreq (ctx : AuthContext) (hctx : AuthReq.login req = .logout ctx) :
        p.shared.Admits ctx := by cases hctx
    exact ⟨_, h.arrive hreq, fun j u ↦ Pool.getElem?_append_of_some, rfl,
      Pool.Meets.spawn hm (Login_revokes req) _⟩
  | refresh token =>
    obtain rfl := Option.some.inj hx
    have hreq (ctx : AuthContext) (hctx : AuthReq.refresh token = .logout ctx) :
        p.shared.Admits ctx := by cases hctx
    exact ⟨_, h.arrive hreq, fun j u ↦ Pool.getElem?_append_of_some, rfl,
      Pool.Meets.spawn hm (RefreshToken_revokes token) _⟩
  | logout ctx =>
    simp only [AuthState.env] at hx
    split at hx
    · next hadmits =>
      obtain rfl := Option.some.inj hx
      have hjti : ctx.jwt_jti ≠ "" := by
        obtain ⟨d, hd, -⟩ := hadmits
        have hkey : d.token_id = ctx.jwt_jti := Table.key_of_find hd
        rw [← hkey]
        exact h.named _ d hd
      have hreq (ctx' : AuthContext) (hctx : AuthReq.logout ctx = .logout ctx') :
          p.shared.Admits ctx' := by
        obtain rfl := AuthReq.logout.inj hctx
        exact hadmits
      exact ⟨_, h.arrive hreq, fun j u ↦ Pool.getElem?_append_of_some, rfl,
        Pool.Meets.spawn hm (Logout_revokes hjti) _⟩
    · cases hx
  | tick n =>
    obtain rfl := Option.some.inj hx
    exact ⟨ts, h.tick n, fun _ _ hu ↦ hu, rfl, hm⟩
  | crash k =>
    obtain rfl := Option.some.inj hx
    exact ⟨ts, h, fun _ _ hu ↦ hu, rfl, Pool.Meets.stop hm (fun _ ↦ trivial) k _⟩

theorem revokeInv_fresh (hs : s.Fresh) : RevokeInv cfg [] s where
  requests := hs.requests
  named v d hd := by
    rw [hs.tokens] at hd
    cases hd
  signed v d hd := by
    rw [hs.tokens] at hd
    cases hd
  active k v e hk := by
    rw [hs.active] at hk
    cases hk
  issued _ _ h := absurd h (by simp)
  found _ _ h := absurd h (by simp)
  admits _ _ _ h := absurd h (by simp)
  barred _ _ _ _ h := absurd h (by simp)
  answered j rsp hj := by
    rw [hs.answers] at hj
    exact absurd hj List.not_mem_nil

end Steps

/-! ### Runs -/

/-- The call has put its token on the blacklist. -/
def Bars (cfg : JwtConfig) (l : ℕ) (ctx : AuthContext) (d : TokenClaims) (ts : List RevokeCall)
    (s : AuthState) : Prop :=
  RevokeInv cfg ts s ∧ (∃ t, ts[l]? = some t ∧ t.req = .logout ctx ∧ t.barred = true) ∧
    s.tokens.find ctx.jwt_jti = some d

/-- **Logging out bars the token**: from the moment at which a `Logout` has succeeded, the access
token with which it was called is on the blacklist, up to the time at which it expires. -/
theorem logout_bars_token {cfg : JwtConfig} {lib : JwtLib} {s₀ : AuthState} (hs : s₀.Fresh)
    {p₁ : AuthPool} (h₁ : (identityService cfg lib).Reach redisAnswers ⟨[], s₀⟩ p₁) {l : ℕ}
    {ctx : AuthContext} (hl : p₁.shared.requests[l]? = some (.logout ctx))
    (hok : p₁.shared.Succeeds l) :
    ∃ d : TokenClaims, d.jti = ctx.jwt_jti ∧ d.jti ≠ "" ∧
      ∀ p : AuthPool, (identityService cfg lib).Reach redisAnswers p₁ p →
        p.shared.tokens.find d.jti = some d ∧ p.shared.Barred d := by
  obtain ⟨ts₁, hinv₁, hm₁⟩ := Machine.invariant h₁ ⟨[], revokeInv_fresh hs, .nil⟩
    (fun h hi ha hG hx ↦ ⟨trivial, revokeInv_call h hi ha hG hx⟩)
    (fun h hm _ hx ↦ by
      obtain ⟨ts', h', -, -, hm'⟩ := revokeInv_event h hm hx
      exact ⟨ts', h', hm'⟩)
  obtain ⟨rsp, hrsp⟩ := hok
  obtain ⟨t₁, ht₁, hlogout⟩ := hinv₁.answered l rsp hrsp
  have hreq₁ : t₁.req = .logout ctx := by
    rw [hinv₁.requests, List.getElem?_map, ht₁, Option.map_some] at hl
    exact Option.some.inj hl
  obtain ⟨d, hd, -⟩ := hinv₁.admits l t₁ ctx ht₁ hreq₁
  have hjti : d.token_id = ctx.jwt_jti := Table.key_of_find hd
  refine ⟨d, hjti, hinv₁.named _ d hd, fun p h ↦ ?_⟩
  obtain ⟨ts, ⟨hinv, ⟨t, ht, hreq, hbar⟩, hd'⟩, -⟩ : ∃ ts, Bars cfg l ctx d ts p.shared ∧
      p.Revokes cfg ts := by
    refine Machine.invariant h ⟨ts₁, ⟨hinv₁, ⟨t₁, ht₁, hreq₁, hlogout ctx hreq₁⟩, hd⟩, hm₁⟩ ?_ ?_
    · rintro ts s i t o c r s' ⟨h, ⟨u, hu, hreq, hbar⟩, hd⟩ hi ha hG hx
      refine ⟨trivial, revokeInv_call h hi ha hG hx, ?_, (AuthState.effect_exec hx).tokens _ _ hd⟩
      rcases eq_or_ne l i with rfl | hne
      · obtain rfl := Option.some.inj (hi.symm.trans hu)
        have hgrows := t.grows_next o r
        exact ⟨_, Pool.getElem?_set_self hi, hgrows.req.trans hreq, hgrows.barred hbar⟩
      · refine ⟨u, ?_, hreq, hbar⟩
        rw [List.getElem?_set_ne hne.symm]
        exact hu
    · rintro ts p e p' ⟨h, ⟨u, hu, hreq, hbar⟩, hd⟩ hm - hx
      obtain ⟨ts', h', hpre, htokens, hm'⟩ := revokeInv_event h hm hx
      exact ⟨ts', ⟨h', ⟨u, hpre l u hu, hreq, hbar⟩, htokens ▸ hd⟩, hm'⟩
  exact ⟨AuthState.find_own hd', hinv.barred l t ctx d ht hreq hbar hd'⟩

end ChatNow
