import ChatNow.Identity.Sessions

/-!
# Logging out ends the session

A `Logout` leaves the refresh key of its device empty, and a `RefreshToken` that finds it empty is
refused. So the session has ended, unless somebody sets the key again: a `Login`, or a
`RefreshToken` that had found its token under the key before it was deleted, and puts the new one
there without another look. `logout_ends_session` is about the runs in which neither happens.
-/

namespace ChatNow

open Prog AuthOp

/-- No command of Redis throws, and no refresh key is set that the given thread has found without a
token on logging out, or has deleted. -/
def keyStaysEmpty (l : ℕ) : Machine.Guard AuthOp AuthOp.Res AuthState AuthChoice AuthEv where
  onOp _ o c s := c.fault = false ∧
    match o with
    | setActive uid did _ _ => (l, rt_key uid did) ∉ s.left
    | _ => True
  onEv _ _ := True

/-! ### The invariants -/

/-- The keys that the thread has left are empty. -/
def AuthState.LeftEmpty (s : AuthState) (l : ℕ) : Prop :=
  ∀ k, (l, k) ∈ s.left → s.active.get s.now k = none

/-- The thread has left the key of its device if it has come to the end of a `Logout`. -/
def LeavesKey (l : ℕ) (ts : List AuthCall) (s : AuthState) : Prop :=
  ∀ t ctx, ts[l]? = some t → t.req = .logout ctx → t.phase = .left →
    (l, rt_key ctx.user_id ctx.device_id) ∈ s.left

/-- The thread has left the key, and none of the calls from the given one on has found its token
there. -/
structure SessionEnded (l : ℕ) (key : String) (n : ℕ) (ts : List AuthCall) (s : AuthState) :
    Prop where
  empty : s.LeftEmpty l
  left : (l, key) ∈ s.left
  later : ∀ j t c, n ≤ j → ts[j]? = some t → t.phase.past = some c → c.rt_key ≠ key

section Steps

variable {cfg : JwtConfig} {lib : JwtLib} {ts : List AuthCall} {s s' : AuthState} {i : ℕ}
  {t : AuthCall} {c : AuthChoice}

/-- A refresh key never holds an empty id. -/
theorem AuthInv.active_ne (h : AuthInv cfg lib ts s) {k : String}
    (hv : (s.active.get s.now k).getD "" = "") : s.active.get s.now k = none := by
  cases hget : s.active.get s.now k with
  | none => rfl
  | some v =>
    rw [hget] at hv
    obtain ⟨e, hkey, -⟩ := s.active.get_eq_some.1 hget
    obtain ⟨d, hd⟩ := Option.ne_none_iff_exists'.1 (h.issued v (h.active k v e hkey))
    have hjti : d.token_id = v := Table.key_of_find hd
    have hne : d.token_id ≠ "" := (h.signed v d hd).named.2.2
    rw [hjti] at hne
    exact absurd hv hne

/-- What has been left is not forgotten. -/
theorem left_mono {o : AuthOp} {r : o.Res} (hx : s.exec cfg lib i o c = some (r, s'))
    {x : ℕ × String} (h : x ∈ s.left) : x ∈ s'.left := by
  rcases (AuthState.effect_exec hx).left with hsame | ⟨-, key, hnew⟩
  · rw [hsame]
    exact h
  · rw [hnew]
    exact List.mem_cons_of_mem _ h

/-- The keys that have been left stay empty, and so do those that are left now. -/
theorem leftEmpty_call {l : ℕ} {o : AuthOp} {r : o.Res} (h : s.LeftEmpty l)
    (hinv : AuthInv cfg lib ts s) (hG : (keyStaysEmpty l).onOp i o c s)
    (hx : s.exec cfg lib i o c = some (r, s')) : s'.LeftEmpty l := by
  obtain ⟨hc, hput⟩ := hG
  have heffect := AuthState.effect_exec hx
  by_cases hdel : ∃ uid did, o = delActive uid did
  · obtain ⟨uid, did, rfl⟩ := hdel
    obtain ⟨-, rfl⟩ := Prod.mk.inj (Option.some.inj hx)
    rw [if_pos (c.acts_of_answered hc)]
    intro k hk
    show (s.active.del (rt_key uid did)).get s.now k = none
    rcases eq_or_ne k (rt_key uid did) with rfl | hne
    · exact s.active.get_del_self
    · rw [Expiring.get, s.active.del_ne hne]
      rcases List.mem_cons.1 hk with heq | hk
      · exact absurd (Prod.mk.inj heq).2 hne
      · exact h k hk
  rcases heffect.active with hactive | ⟨uid, did, jti, ttl_sec, rfl⟩ | hdel'
  · have hold (k : String) (hk : (l, k) ∈ s.left) : s'.active.get s'.now k = none := by
      rw [heffect.now, hactive]
      exact h k hk
    rcases heffect.left with hout | ⟨⟨uid, did, rfl⟩ | hdel', -⟩
    · exact fun k hk ↦ hold k (hout ▸ hk)
    · obtain ⟨-, rfl⟩ := Prod.mk.inj (Option.some.inj hx)
      split
      · next hleft =>
        have hnone : (s.active.get s.now (rt_key uid did)).getD "" = "" := by
          simp only [Bool.and_eq_true, decide_eq_true_eq] at hleft
          exact hleft.2
        intro k hk
        rcases List.mem_cons.1 hk with heq | hk
        · obtain ⟨-, rfl⟩ := Prod.mk.inj heq
          exact hinv.active_ne hnone
        · exact h k hk
      · exact h
    · exact absurd hdel' hdel
  · -- another key is set
    obtain ⟨-, rfl⟩ := Prod.mk.inj (Option.some.inj hx)
    rw [if_pos (c.acts_of_answered hc)]
    intro k hk
    have hne : k ≠ rt_key uid did := by
      rintro rfl
      exact hput hk
    show (s.active.setEx s.now (rt_key uid did) jti ttl_sec).get s.now k = none
    rw [Expiring.get_setEx_ne _ hne]
    exact h k hk
  · exact absurd hdel' hdel

/-- A `Logout` comes to its end when it finds its key empty, or deletes it. -/
theorem leavesKey_call {l : ℕ} {o : AuthOp} {r : o.Res} (h : LeavesKey l ts s)
    (hinv : AuthInv cfg lib ts s) (hi : ts[i]? = some t) (ha : t.allowed cfg o)
    (hc : c.fault = false) (hx : s.exec cfg lib i o c = some (r, s')) :
    LeavesKey l (ts.set i ((authContract cfg).next t o r)) s' := by
  intro u ctx hu hreq hphase
  rcases Pool.getElem?_set_cases hu with ⟨rfl, rfl⟩ | ⟨-, hu'⟩
  swap
  · exact left_mono hx (h u ctx hu' hreq hphase)
  have hreq' : t.req = .logout ctx := hreq
  rcases AuthCall.left_nextPhase hphase with hold | ⟨uid, did, rfl⟩ | ⟨uid, did, rfl⟩
  · exact left_mono hx (h t ctx hi hreq' hold)
  · rcases ha with ⟨⟨ctx', hctx, rfl, rfl⟩, hstart⟩ | ⟨d, hd, -⟩
    · obtain rfl : ctx' = ctx := AuthReq.logout.inj (hctx.symm.trans hreq')
      obtain ⟨hr, rfl⟩ := Prod.mk.inj (Option.some.inj hx)
      rw [c.reply_of_answered hc] at hr
      obtain rfl := hr.symm
      simp only [authContract, hstart, AuthCall.nextPhase] at hphase
      split at hphase
      · next hv =>
        rw [if_pos (by rw [(hinv.logsOut_iff hi).2 ⟨_, hreq'⟩, hc, hv]; decide)]
        exact List.mem_cons_self
      · cases hphase
    · have hshows := (hinv.knows l t hi).shows (c := d) (by rw [hd]; rfl)
      obtain ⟨token, htoken, -⟩ := hshows.token
      rw [hreq'] at htoken
      cases htoken
  · obtain ⟨-, rfl⟩ := Prod.mk.inj (Option.some.inj hx)
    rw [if_pos (c.acts_of_answered hc)]
    rcases ha with ⟨⟨ctx', hctx, rfl, rfl⟩, -⟩ | ⟨d, hd, -⟩
    · obtain rfl : ctx' = ctx := AuthReq.logout.inj (hctx.symm.trans hreq')
      exact List.mem_cons_self
    · simp only [authContract, hd, AuthCall.nextPhase] at hphase
      cases hphase

/-- Nobody finds a token under a key that has been left. -/
theorem ended_call {l n : ℕ} {key : String} {o : AuthOp} {r : o.Res}
    (h : SessionEnded l key n ts s) (hinv : AuthInv cfg lib ts s) (hi : ts[i]? = some t)
    (ha : t.allowed cfg o) (hG : (keyStaysEmpty l).onOp i o c s)
    (hx : s.exec cfg lib i o c = some (r, s')) :
    SessionEnded l key n (ts.set i ((authContract cfg).next t o r)) s' := by
  refine ⟨leftEmpty_call h.empty hinv hG hx, left_mono hx h.left, fun j u d hj hu hd ↦ ?_⟩
  rcases Pool.getElem?_set_cases hu with ⟨rfl, rfl⟩ | ⟨-, hu'⟩
  swap
  · exact h.later j u d hj hu' hd
  by_cases hget : ∃ uid did, o = getActive uid did
  · obtain ⟨uid, did, rfl⟩ := hget
    rcases AuthCall.past_getActive hd with hold | ⟨hphase, v, rfl, hv⟩
    · exact h.later j t d hj hi hold
    · -- it has found its own id, so the key is not empty
      rintro rfl
      have hne : d.jti ≠ "" := by
        have hshows := (hinv.knows j t hi).shows (c := d) (by rw [hphase]; rfl)
        exact (hinv.signed _ _ hshows.issued).named.2.2
      have hkey : rt_key uid did = d.rt_key := by
        rcases ha with ⟨-, hstart⟩ | ⟨d', hd', rfl, rfl⟩
        · rw [hphase] at hstart
          cases hstart
        · rw [hphase] at hd'
          obtain rfl := AuthPhase.unrevoked.inj hd'
          rfl
      obtain ⟨hr, -⟩ := Prod.mk.inj (Option.some.inj hx)
      rw [c.reply_of_answered hG.1, hkey, h.empty _ h.left] at hr
      obtain rfl := Reply.ok.inj hr
      exact hne hv.symm
  · exact h.later j t d hj hi (AuthCall.past_nextPhase (fun uid did heq ↦ hget ⟨uid, did, heq⟩) hd)

theorem leftEmpty_event {l : ℕ} {p : AuthPool} {e : AuthEv} {ts' : List AuthCall}
    (h : p.shared.LeftEmpty l) (he : AuthEvent ts p.shared e ts' s') : s'.LeftEmpty l := by
  cases he with
  | arrive req hreq => exact h
  | tick m =>
    refine fun k hk ↦ Expiring.get_none_of_later (h k hk) ?_
    show p.shared.now ≤ p.shared.now + m
    omega
  | gone i => exact h
  | fail hi hflying => exact h

theorem leavesKey_event {l : ℕ} {p : AuthPool} {e : AuthEv} {ts' : List AuthCall}
    (h : LeavesKey l ts p.shared) (he : AuthEvent ts p.shared e ts' s') : LeavesKey l ts' s' := by
  cases he with
  | arrive req hreq =>
    intro u ctx hu hreq hphase
    rcases Pool.getElem?_append_cases hu with ⟨-, rfl⟩ | ⟨-, hu'⟩
    · cases hphase
    · exact h u ctx hu' hreq hphase
  | tick m => exact h
  | gone i => exact h
  | fail hi hflying =>
    intro u ctx hu hreq hphase
    rcases Pool.getElem?_set_cases hu with ⟨-, rfl⟩ | ⟨-, hu'⟩
    · cases hphase
    · exact h u ctx hu' hreq hphase

/-- A call that arrives has found nothing, and one that is gone finds nothing any more. -/
theorem ended_event {l n : ℕ} {key : String} {p : AuthPool} {e : AuthEv} {ts' : List AuthCall}
    (h : SessionEnded l key n ts p.shared) (he : AuthEvent ts p.shared e ts' s') :
    SessionEnded l key n ts' s' := by
  have hempty := leftEmpty_event h.empty he
  cases he with
  | arrive req hreq =>
    refine ⟨hempty, h.left, fun j u d hj hu hd ↦ ?_⟩
    rcases Pool.getElem?_append_cases hu with ⟨-, rfl⟩ | ⟨-, hu'⟩
    · cases hd
    · exact h.later j u d hj hu' hd
  | tick m => exact ⟨hempty, h.left, h.later⟩
  | gone i => exact h
  | fail hi hflying =>
    refine ⟨hempty, h.left, fun j u d hj hu hd ↦ ?_⟩
    rcases Pool.getElem?_set_cases hu with ⟨-, rfl⟩ | ⟨-, hu'⟩
    · cases hd
    · exact h.later j u d hj hu' hd

end Steps

/-! ### Runs -/

/-- **Logging out ends the session**: from the moment at which a `Logout` has succeeded the refresh
key of its device is empty, and no `RefreshToken` that arrives later for the device succeeds, in
every run in which nobody sets the key once the `Logout` has left it. -/
theorem logout_ends_session (cfg : JwtConfig) (lib : JwtLib) (s₀ : AuthState) (hs : s₀.Fresh)
    (l : ℕ) (p₁ p : AuthPool)
    (h₁ : (identityService cfg lib).Reach (keyStaysEmpty l) ⟨[], s₀⟩ p₁)
    (h : (identityService cfg lib).Reach (keyStaysEmpty l) p₁ p) (ctx : AuthContext)
    (hl : p₁.shared.requests[l]? = some (.logout ctx)) (hok : p₁.shared.Succeeds l) :
    p.shared.active.get p.shared.now (rt_key ctx.user_id ctx.device_id) = none ∧
      ∀ j token c, p₁.shared.requests.length ≤ j → p.shared.Presents j token →
        lib.reads token = some c → c.sub = ctx.user_id → c.did = ctx.device_id →
        ¬ p.shared.Succeeds j := by
  have hempty₀ : s₀.LeftEmpty l := by
    intro k hk
    rw [hs.left] at hk
    exact absurd hk List.not_mem_nil
  have hleaves₀ : LeavesKey l [] s₀ := fun _ _ hu ↦ absurd hu (by simp)
  obtain ⟨ts₁, hinv₁, ⟨hempty₁, hleaves₁⟩, hm₁⟩ := auth_invariant
    (I := fun ts s ↦ s.LeftEmpty l ∧ LeavesKey l ts s) h₁ (fun _ _ _ _ hG ↦ hG.1)
    (authInv_fresh hs) ⟨hempty₀, hleaves₀⟩ .nil
    (fun hinv h hi ha hG hx ↦
      ⟨leftEmpty_call h.1 hinv hG hx, leavesKey_call h.2 hinv hi ha hG.1 hx⟩)
    (fun _ h _ _ he ↦ ⟨leftEmpty_event h.1 he, leavesKey_event h.2 he⟩)
  obtain ⟨t, ht, hreq, hphase⟩ := hinv₁.left hl hok
  have hstart : SessionEnded l (rt_key ctx.user_id ctx.device_id) p₁.shared.requests.length ts₁
      p₁.shared := by
    refine ⟨hempty₁, hleaves₁ t ctx ht hreq hphase, fun j u d hj hu hd ↦ ?_⟩
    rw [hinv₁.requests, List.length_map] at hj
    rw [List.getElem?_eq_none hj] at hu
    cases hu
  obtain ⟨ts, hinv, hended, -⟩ := auth_invariant h (fun _ _ _ _ hG ↦ hG.1) hinv₁ hstart hm₁
    (fun hinv h hi ha hG hx ↦ ended_call h hinv hi ha hG hx) (fun _ h _ _ he ↦ ended_event h he)
  refine ⟨hended.empty _ hended.left, fun j token d hj hpresents hreads hsub hdid hsucc ↦ ?_⟩
  obtain ⟨t, c, ht, hwon, hreads'⟩ := hinv.won hpresents hsucc
  obtain rfl : d = c.toJwtClaims := by
    rw [hreads] at hreads'
    exact Option.some.inj hreads'
  refine hended.later j t c hj ht (by rw [hwon]; rfl) ?_
  rw [TokenClaims.rt_key, hsub, hdid]

instance (l i : ℕ) (o : AuthOp) (c : AuthChoice) (s : AuthState) :
    Decidable ((keyStaysEmpty l).onOp i o c s) :=
  match o with
  | .setActive uid did _ _ =>
    inferInstanceAs (Decidable (c.fault = false ∧ (l, rt_key uid did) ∉ s.left))
  | .clock => inferInstanceAs (Decidable (c.fault = false ∧ True))
  | .verify _ _ => inferInstanceAs (Decidable (c.fault = false ∧ True))
  | .issue _ _ _ => inferInstanceAs (Decidable (c.fault = false ∧ True))
  | .credentials _ _ => inferInstanceAs (Decidable (c.fault = false ∧ True))
  | .setRevoked _ _ => inferInstanceAs (Decidable (c.fault = false ∧ True))
  | .getRevoked _ => inferInstanceAs (Decidable (c.fault = false ∧ True))
  | .getActive _ _ => inferInstanceAs (Decidable (c.fault = false ∧ True))
  | .delActive _ _ => inferInstanceAs (Decidable (c.fault = false ∧ True))
  | .setChain _ _ => inferInstanceAs (Decidable (c.fault = false ∧ True))
  | .respond _ => inferInstanceAs (Decidable (c.fault = false ∧ True))

instance (l : ℕ) (e : AuthEv) (p : AuthPool) : Decidable ((keyStaysEmpty l).onEv e p) :=
  .isTrue trivial

/-- What the gateway reads in alice's access token. -/
def alicePhone : AuthContext := ⟨"alice", "phone", "0a0a0a0a0a0a0a0a0a0a0a0a0a0a0a0a"⟩

/-- Alice logs out, and her refresh token is presented afterwards. -/
theorem logout_ends_session_alice :
    ({} : AuthState).Fresh ∧ ∃ p₁ p,
      (identityService phoneConfig phoneLib).Reach (keyStaysEmpty 1) ⟨[], {}⟩ p₁ ∧
      (identityService phoneConfig phoneLib).Reach (keyStaysEmpty 1) p₁ p ∧
      p₁.shared.Succeeds 1 ∧ p.shared.Presents 2 (phoneToken 1) ∧
      p.shared.active.get p.shared.now (rt_key "alice" "phone") = none ∧
      ¬ p.shared.Succeeds 2 := by
  have hfresh : ({} : AuthState).Fresh := ⟨rfl, rfl, rfl, rfl, rfl, rfl, rfl, rfl, rfl⟩
  obtain ⟨p₁, hp₁, ⟨hlogout, hok, hlen⟩, hrest⟩ := Machine.exists_of_run
    (identityService phoneConfig phoneLib) (keyStaysEmpty 1) ⟨[], {}⟩
    (aliceLogsIn ++ [.event (.logout alicePhone)] ++ List.replicate 5 (.call 1 {}))
    (fun p₁ ↦ (p₁.shared.requests[1]? = some (.logout alicePhone) ∧ p₁.shared.Succeeds 1 ∧
      p₁.shared.requests.length = 2) ∧
      ((identityService phoneConfig phoneLib).run (keyStaysEmpty 1) p₁
        (.event (.refresh (phoneToken 1)) :: List.replicate 3 (.call 2 {}))).any
        (fun p ↦ p.shared.Presents 2 (phoneToken 1)) = true) (by decide +kernel)
  obtain ⟨p, hp, hpresents⟩ := Machine.exists_of_run _ _ p₁ _ _ hrest
  obtain ⟨hempty, hnone⟩ := logout_ends_session phoneConfig phoneLib {} hfresh 1 p₁ p hp₁ hp
    alicePhone hlogout hok
  have hreads : phoneLib.reads (phoneToken 1) =
      some ⟨"alice", "phone", "0b0b0b0b0b0b0b0b0b0b0b0b0b0b0b0b"⟩ := by decide +kernel
  exact ⟨hfresh, p₁, p, hp₁, hp, hok, hpresents, hempty,
    hnone 2 _ _ (by omega) hpresents hreads rfl rfl⟩

/-- Alice logs out while her phone refreshes its tokens: all requests have finished, and the new
refresh token is under the key and can be used. -/
theorem logout_overtaken_by_refresh :
    ∃ p₁ p, (identityService phoneConfig phoneLib).Reach redisAnswers ⟨[], {}⟩ p₁ ∧
      (identityService phoneConfig phoneLib).Reach redisAnswers p₁ p ∧
      p₁.shared.requests.tail = [.refresh (phoneToken 1), .logout alicePhone] ∧
      p₁.threads.all (·.finished) = true ∧ p₁.shared.Succeeds 2 ∧
      p₁.shared.active.get p₁.shared.now (rt_key "alice" "phone") ≠ none ∧
      p.shared.requests.tail = [.refresh (phoneToken 1), .logout alicePhone,
        .refresh (phoneToken 3)] ∧ p.shared.Succeeds 3 := by
  obtain ⟨p₁, hp₁, ⟨hreq, hdone, hok, hactive⟩, hrest⟩ := Machine.exists_of_run
    (identityService phoneConfig phoneLib) redisAnswers ⟨[], {}⟩
    (aliceLogsIn ++ [.event (.refresh (phoneToken 1)), .event (.logout alicePhone),
      .call 1 {}, .call 1 {}, .call 1 {}, .call 1 (issues 2), .call 1 (issues 3), .call 1 {}] ++
      List.replicate 5 (.call 2 {}) ++ List.replicate 4 (.call 1 {}))
    (fun p₁ ↦ (p₁.shared.requests.tail = [.refresh (phoneToken 1), .logout alicePhone] ∧
      p₁.threads.all (·.finished) = true ∧ p₁.shared.Succeeds 2 ∧
      p₁.shared.active.get p₁.shared.now (rt_key "alice" "phone") ≠ none) ∧
      ((identityService phoneConfig phoneLib).run redisAnswers p₁
        (.event (.refresh (phoneToken 3)) :: [.call 3 {}, .call 3 {}, .call 3 {},
          .call 3 (issues 4), .call 3 (issues 5)] ++ List.replicate 5 (.call 3 {}))).any
        (fun p ↦ p.shared.requests.tail = [.refresh (phoneToken 1), .logout alicePhone,
          .refresh (phoneToken 3)] ∧ p.shared.Succeeds 3) = true) (by decide +kernel)
  obtain ⟨p, hp, hreq', hok'⟩ := Machine.exists_of_run _ _ p₁ _ _ hrest
  exact ⟨p₁, p, hp₁, hp, hreq, hdone, hok, hactive, hreq', hok'⟩

end ChatNow
