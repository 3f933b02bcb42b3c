import ChatNow.Identity.Sessions

/-!
# A refresh token is single-use

Of the requests that present one refresh token at most one succeeds, whatever else happens, as long
as the chain mark of the token does not expire while one of them is under way.

A request that succeeds has set the chain mark of its token. While it has not yet replaced the token
under the refresh key of the device, the mark is there, and nobody else can set it; after that
nobody finds the token under the key. The dangerous requests are those that have found it there
before: they still have the chain mark in front of them, and that is where the assumption is needed
(`SingleUse.marked`).
-/

namespace ChatNow

open Prog AuthOp

/-! ### The assumption -/

/-- The claims that thread `i` presents to `RefreshToken`. -/
def AuthState.presented (lib : JwtLib) (s : AuthState) (i : ℕ) : Option JwtClaims :=
  match s.requests[i]? with
  | some (.refresh token) => lib.reads token
  | _ => none

/-- The chain mark of the token is set. -/
def AuthState.marked (s : AuthState) (now : ℤ) (jti : String) : Bool := (s.chain.get now jti).isSome

theorem AuthState.marked_mark {s : AuthState} {jti v : String} {ttl_sec : ℤ} (hpos : 0 < ttl_sec)
    (h : v = jti ∨ s.marked s.now v = true) : (s.mark jti ttl_sec).marked s.now v = true := by
  rcases eq_or_ne v jti with rfl | hne
  · rw [marked, show ((s.mark v ttl_sec).chain.get s.now v) = some () from
      Expiring.get_setEx_self _ hpos]
    rfl
  · rcases h with rfl | h
    · exact absurd rfl hne
    · rw [marked, show ((s.mark jti ttl_sec).chain.get s.now v) = s.chain.get s.now v from
        Expiring.get_setEx_ne _ hne]
      exact h

/-- Thread `i` is under way with a token whose chain mark expires within the time. -/
def AuthPool.outlives (lib : JwtLib) (p : AuthPool) (n i : ℕ) : Bool :=
  (p.threads[i]?).any (!·.finished) && (p.shared.presented lib i).any fun c ↦
    p.shared.marked p.shared.now c.jti && !p.shared.marked (p.shared.now + n) c.jti

/-- No command of Redis throws, and no request outlives the chain mark of its token. -/
def noneOutlives (lib : JwtLib) : Machine.Guard AuthOp AuthOp.Res AuthState AuthChoice AuthEv where
  onOp _ _ c _ := c.fault = false
  onEv e p :=
    match e with
    | .tick n => ∀ i < p.threads.length, AuthPool.outlives lib p n i = false
    | _ => True

/-! ### The invariant -/

/-- The claims of a token whose chain mark the call has set. -/
def AuthPhase.taken : AuthPhase → Option TokenClaims
  | chained c => some c
  | ph => ph.exchanged

namespace AuthPhase

variable {ph : AuthPhase} {c : TokenClaims}

theorem taken_cases (h : ph.taken = some c) : ph = .chained c ∨ ph.exchanged = some c := by
  cases ph with
  | chained d =>
    obtain rfl := Option.some.inj h
    exact .inl rfl
  | _ => exact .inr h

/-- Nothing is taken, and nothing is about to be. -/
structure Calms (ph ph' : AuthPhase) : Prop where
  taken : ∀ c, ph'.taken = some c → ph.taken = some c
  flying : ∀ c, ph'.flying = some c → ph.flying = some c

theorem Calms.refl (ph : AuthPhase) : ph.Calms ph := ⟨fun _ h ↦ h, fun _ h ↦ h⟩

theorem Calms.of_none {ph' : AuthPhase} (htaken : ph'.taken = none) (hflying : ph'.flying = none) :
    ph.Calms ph' := by
  constructor
  · intro c hc
    rw [htaken] at hc
    cases hc
  · intro c hc
    rw [hflying] at hc
    cases hc

/-- Whatever a call does beside looking for its token and setting the chain mark. -/
theorem calms_next {o : AuthOp} {r : o.Res} (hget : ∀ uid did, o ≠ getActive uid did)
    (hset : ∀ jti ttl_sec, o ≠ setChain jti ttl_sec) : ph.Calms (AuthCall.nextPhase ph o r) := by
  have hturn := AuthCall.turn_nextPhase ph o r
  generalize AuthCall.nextPhase ph o r = ph' at hturn ⊢
  cases hturn with
  | stay _ _ => exact .refl ph
  | find c uid did => exact absurd rfl (hget uid did)
  | miss c uid did => exact absurd rfl (hget uid did)
  | stays uid did => exact absurd rfl (hget uid did)
  | leave uid did => exact absurd rfl (hget uid did)
  | mark c jti ttl_sec => exact absurd rfl (hset jti ttl_sec)
  | late c jti ttl_sec => exact absurd rfl (hset jti ttl_sec)
  | rotate c uid did jti ttl_sec =>
    refine ⟨fun _ h ↦ h, fun _ h ↦ ?_⟩
    cases h
  | read c now => exact ⟨fun _ h ↦ h, fun _ h ↦ h⟩
  | bar c now jti ttl_sec => exact ⟨fun _ h ↦ h, fun _ h ↦ h⟩
  | win c rsp => exact ⟨fun _ h ↦ h, fun _ h ↦ h⟩
  | winLate c now rsp => exact ⟨fun _ h ↦ h, fun _ h ↦ h⟩
  | _ => exact .of_none rfl rfl

end AuthPhase

/-- At most one call has set the chain mark of a token, and the mark is there as long as another one
may try to. -/
structure SingleUse (ts : List AuthCall) (s : AuthState) : Prop where
  marked : ∀ (i j : ℕ) t u c d, ts[i]? = some t → ts[j]? = some u → t.phase.taken = some c →
    u.phase.flying = some d → d.jti = c.jti → s.marked s.now c.jti = true
  one : ∀ (i j : ℕ) t u c d, ts[i]? = some t → ts[j]? = some u → t.phase.taken = some c →
    u.phase.taken = some d → c.jti = d.jti → i = j

section Steps

variable {cfg : JwtConfig} {lib : JwtLib} {ts : List AuthCall} {s s' : AuthState} {i : ℕ}
  {t t' : AuthCall} {c : AuthChoice}

theorem SingleUse.nil : SingleUse [] s :=
  ⟨fun _ _ _ _ _ _ h ↦ absurd h (by simp), fun _ _ _ _ _ _ h ↦ absurd h (by simp)⟩

/-- A step in which nobody sets a mark, and nobody finds a token under its key. -/
theorem SingleUse.keep (h : SingleUse ts s) (hi : ts[i]? = some t)
    (hcalms : t.phase.Calms t'.phase)
    (hmarked : ∀ v, s.marked s.now v = true → s'.marked s'.now v = true) :
    SingleUse (ts.set i t') s' := by
  have hold {j : ℕ} {u : AuthCall} (hu : (ts.set i t')[j]? = some u) :
      ∃ w, ts[j]? = some w ∧ (∀ d, u.phase.taken = some d → w.phase.taken = some d) ∧
        ∀ d, u.phase.flying = some d → w.phase.flying = some d := by
    rcases Pool.getElem?_set_cases hu with ⟨rfl, rfl⟩ | ⟨-, hu⟩
    · exact ⟨t, hi, hcalms.taken, hcalms.flying⟩
    · exact ⟨u, hu, fun _ hd ↦ hd, fun _ hd ↦ hd⟩
  constructor
  · intro j k u w d e hu hw hd he heq
    obtain ⟨u', hu', htaken', -⟩ := hold hu
    obtain ⟨w', hw', -, hflying'⟩ := hold hw
    exact hmarked _ (h.marked j k u' w' d e hu' hw' (htaken' d hd) (hflying' e he) heq)
  · intro j k u w d e hu hw hd he heq
    obtain ⟨u', hu', htaken', -⟩ := hold hu
    obtain ⟨w', hw', htaken'', -⟩ := hold hw
    exact h.one j k u' w' d e hu' hw' (htaken' d hd) (htaken'' e he) heq

/-- A call that finds its token under the key of the device. Nobody has exchanged it, so whoever has
set its mark is still on the way, and the mark is there. -/
theorem singleUse_match {d : TokenClaims} {e : ℤ} {held : List String} (h : SingleUse ts s)
    (hinv : AuthInv cfg lib ts s) (hi : ts[i]? = some t) (hphase : t.phase = .unrevoked d)
    (hkey : s.active d.rt_key = some (d.jti, e)) :
    SingleUse (ts.set i ⟨t.req, .matched d, held⟩) s := by
  have hold {j : ℕ} {u : AuthCall} {c : TokenClaims}
      (hu : (ts.set i ⟨t.req, .matched d, held⟩)[j]? = some u) (hc : u.phase.taken = some c) :
      ts[j]? = some u := by
    refine Pool.getElem?_of_set hu ?_
    rintro rfl
    cases hc
  constructor
  · intro j k u w c c' hu hw hc hc' hjti
    have hu' := hold hu hc
    rcases Pool.getElem?_set_cases hw with ⟨rfl, rfl⟩ | ⟨-, hw'⟩
    · obtain rfl := Option.some.inj hc'
      rcases AuthPhase.taken_cases hc with hchained | hexchanged
      · exact h.marked j j u u c c hu' hu' hc (by rw [hchained]; rfl) rfl
      · have hclaims := AuthPhase.claims_of_past (AuthPhase.past_of_exchanged hexchanged)
        have heq : c = d := hinv.claims_eq hu' hi hclaims (by rw [hphase]; rfl) hjti.symm
        have hrep := (hinv.knows j u hu').replaced hexchanged
        rw [heq] at hrep
        exact absurd hkey (hrep.gone e)
    · exact h.marked j k u w c c' hu' hw' hc hc' hjti
  · intro j k u w c c' hu hw hc hc' hjti
    exact h.one j k u w c c' (hold hu hc) (hold hw hc') hc hc' hjti

theorem singleUse_getActive {uid did : String} {r : Reply (Option String)}
    (h : SingleUse ts s) (hinv : AuthInv cfg lib ts s) (hi : ts[i]? = some t)
    (ha : t.allowed cfg (getActive uid did)) (hc : c.fault = false)
    (hx : s.exec cfg lib i (getActive uid did) c = some (r, s')) :
    SingleUse (ts.set i ((authContract cfg).next t (getActive uid did) r)) s' := by
  obtain ⟨hr, rfl⟩ := Prod.mk.inj (Option.some.inj hx)
  rw [c.reply_of_answered hc] at hr
  obtain rfl := hr.symm
  -- the chain marks stay as they are
  have hstate {ts' : List AuthCall} {s'' : AuthState} (h' : SingleUse ts' s)
      (hnow : s''.now = s.now) (hchain : s''.chain = s.chain) : SingleUse ts' s'' := by
    refine ⟨fun j k u w e e' hu hw he he' hjti ↦ ?_, h'.one⟩
    rw [AuthState.marked, hnow, hchain]
    exact h'.marked j k u w e e' hu hw he he' hjti
  have hnone {ph : AuthPhase} (htaken : ph.taken = none) (hflying : ph.flying = none) :
      SingleUse (ts.set i { t with phase := ph }) s :=
    h.keep hi (.of_none htaken hflying) fun _ hv ↦ hv
  refine hstate ?_ (by split <;> rfl) (by split <;> rfl)
  rcases ha with ⟨-, hphase⟩ | ⟨d, hphase, rfl, rfl⟩
  · show SingleUse (ts.set i { t with phase := AuthCall.nextPhase t.phase _ _ }) s
    rw [hphase]
    refine hnone ?_ ?_ <;> simp only [AuthCall.nextPhase] <;> split <;> rfl
  · show SingleUse (ts.set i { t with phase := AuthCall.nextPhase t.phase _ _ }) s
    rw [hphase]
    simp only [AuthCall.nextPhase]
    split
    · next hv =>
      have hknows := hinv.knows i t hi
      have hne : d.jti ≠ "" := by
        have hshows := hknows.shows (c := d) (by rw [hphase]; rfl)
        exact (hinv.signed _ _ hshows.issued).named.2.2
      obtain ⟨v, hget⟩ : ∃ v, s.active.get s.now d.rt_key = some v := by
        refine Option.ne_none_iff_exists'.1 fun hnone ↦ hne ?_
        rw [← hv, show s.active.get s.now (rt_key d.sub d.did) = none from hnone]
        rfl
      obtain rfl : v = d.jti := by
        rw [← hv, show s.active.get s.now (rt_key d.sub d.did) = some v from hget]
        rfl
      obtain ⟨e, hkey, -⟩ := s.active.get_eq_some.1 hget
      exact singleUse_match h hinv hi hphase hkey
    · exact hnone rfl rfl

/-- A call that sets the chain mark of its token. -/
theorem singleUse_setChain {jti : String} {ttl_sec : ℤ} {r : Reply Bool}
    (h : SingleUse ts s) (hi : ts[i]? = some t) (ha : t.allowed cfg (setChain jti ttl_sec))
    (hc : c.fault = false)
    (hx : s.exec cfg lib i (setChain jti ttl_sec) c = some (r, s')) :
    SingleUse (ts.set i ((authContract cfg).next t (setChain jti ttl_sec) r)) s' := by
  obtain ⟨d, hphase, rfl, rfl⟩ := ha
  obtain ⟨hr, rfl⟩ := Prod.mk.inj (Option.some.inj hx)
  rw [c.reply_of_answered hc] at hr
  obtain rfl := hr.symm
  obtain ⟨req, phase, held⟩ := t
  obtain rfl : phase = .matched d := hphase
  have hflying : AuthPhase.flying (.matched d) = some d := rfl
  cases hfresh : (s.chain.get s.now d.jti).isNone with
  | false =>
    exact h.keep hi (.of_none rfl rfl) fun v hv ↦ hv
  | true =>
    rw [if_pos (by rw [c.acts_of_answered hc]; rfl)]
    have hnot : ¬ s.marked s.now d.jti = true := by
      rw [AuthState.marked, Option.isNone_iff_eq_none.1 hfresh]
      exact Bool.false_ne_true
    have hmarked (v : String) (hv : v = d.jti ∨ s.marked s.now v = true) :
        (s.mark d.jti JwtStore.kChainTtlSec).marked s.now v = true :=
      AuthState.marked_mark (by decide) hv
    -- nobody else has set the mark: it would still be there
    have hnone (j : ℕ) (u : AuthCall) (e : TokenClaims) (hu : ts[j]? = some u)
        (he : u.phase.taken = some e) : e.jti ≠ d.jti := by
      intro heq
      have hlive := h.marked j i u _ e d hu hi he hflying heq.symm
      rw [heq] at hlive
      exact hnot hlive
    constructor
    · intro j k u w e e' hu hw he he' hjti
      rcases Pool.getElem?_set_cases hu with ⟨rfl, rfl⟩ | ⟨-, hu'⟩
      · obtain rfl := Option.some.inj he
        exact hmarked _ (.inl rfl)
      · rcases Pool.getElem?_set_cases hw with ⟨rfl, rfl⟩ | ⟨-, hw'⟩
        · obtain rfl := Option.some.inj he'
          exact hmarked _ (.inl hjti.symm)
        · exact hmarked _ (.inr (h.marked j k u w e e' hu' hw' he he' hjti))
    · intro j k u w e e' hu hw he he' hjti
      rcases Pool.getElem?_set_cases hu with ⟨hj, rfl⟩ | ⟨-, hu'⟩
      · obtain rfl := Option.some.inj he
        rcases Pool.getElem?_set_cases hw with ⟨hk, -⟩ | ⟨-, hw'⟩
        · exact hj.trans hk.symm
        · exact absurd hjti.symm (hnone k w e' hw' he')
      · rcases Pool.getElem?_set_cases hw with ⟨-, rfl⟩ | ⟨-, hw'⟩
        · obtain rfl := Option.some.inj he'
          exact absurd hjti (hnone j u e hu' he)
        · exact h.one j k u w e e' hu' hw' he he' hjti

/-- **Every call of a thread** keeps it. -/
theorem singleUse_call {o : AuthOp} {r : o.Res} (h : SingleUse ts s) (hinv : AuthInv cfg lib ts s)
    (hi : ts[i]? = some t) (ha : t.allowed cfg o) (hc : c.fault = false)
    (hx : s.exec cfg lib i o c = some (r, s')) :
    SingleUse (ts.set i ((authContract cfg).next t o r)) s' := by
  by_cases hget : ∃ uid did, o = getActive uid did
  · obtain ⟨uid, did, rfl⟩ := hget
    exact singleUse_getActive h hinv hi ha hc hx
  · by_cases hset : ∃ jti ttl_sec, o = setChain jti ttl_sec
    · obtain ⟨jti, ttl_sec, rfl⟩ := hset
      exact singleUse_setChain h hi ha hc hx
    · have hset' : ∀ jti ttl_sec, o ≠ setChain jti ttl_sec := fun jti ttl_sec heq ↦
        hset ⟨jti, ttl_sec, heq⟩
      refine h.keep hi (AuthPhase.calms_next (fun uid did heq ↦ hget ⟨uid, did, heq⟩) hset') ?_
      intro v hv
      have heffect := AuthState.effect_exec hx
      rcases heffect.chain with hchain | ⟨jti, ttl_sec, heq⟩
      · rwa [AuthState.marked, heffect.now, hchain]
      · exact absurd heq (hset' jti ttl_sec)

/-- A call that is about to exchange a token is under way, and presents it. -/
theorem underWay_of_flying {p : AuthPool} {d : TokenClaims} (hinv : AuthInv cfg lib ts p.shared)
    (hm : p.Meets cfg ts) (hi : ts[i]? = some t) (hd : t.phase.flying = some d) :
    i < p.threads.length ∧ (p.threads[i]?).any (!·.finished) = true ∧
      p.shared.presented lib i = some d.toJwtClaims := by
  have hlt : i < p.threads.length := by
    rw [Pool.Meets.length_eq hm]
    exact (List.getElem?_eq_some_iff.1 hi).1
  have hq : p.threads[i]? = some p.threads[i] := List.getElem?_eq_getElem hlt
  refine ⟨hlt, ?_, ?_⟩
  · obtain ⟨u, hu, hmeets⟩ := Pool.Meets.get hm hq
    obtain rfl := Option.some.inj (hi.symm.trans hu)
    rw [hq]
    cases hthread : p.threads[i] with
    | call o k => rfl
    | ret a =>
      rw [hthread] at hmeets
      have hnone : t.phase.flying = none := hmeets
      rw [hd] at hnone
      cases hnone
  · have hclaims := AuthPhase.claims_of_past (AuthPhase.past_of_flying hd)
    obtain ⟨token, hreq, hreads⟩ := ((hinv.knows i t hi).shows hclaims).token
    have hrequest : p.shared.requests[i]? = some (.refresh token) := by
      rw [hinv.requests, List.getElem?_map, hi, Option.map_some, hreq]
    rw [AuthState.presented, hrequest]
    exact hreads

/-- **Every event** keeps it: a mark that somebody may still want to set does not expire. -/
theorem singleUse_event {p : AuthPool} {e : AuthEv} {ts' : List AuthCall}
    (h : SingleUse ts p.shared) (hinv : AuthInv cfg lib ts p.shared) (hm : p.Meets cfg ts)
    (hG : (noneOutlives lib).onEv e p) (he : AuthEvent ts p.shared e ts' s') :
    SingleUse ts' s' := by
  cases he with
  | arrive req hreq =>
    have hold {j : ℕ} {u : AuthCall} (hu : (ts ++ [⟨req, .start, []⟩])[j]? = some u)
        (hne : u.phase ≠ .start) : ts[j]? = some u := by
      refine Pool.getElem?_of_append hu ?_
      rintro rfl
      exact hne rfl
    have htaken {ph : AuthPhase} {c : TokenClaims} (hc : ph.taken = some c) : ph ≠ .start := by
      rintro rfl
      cases hc
    constructor
    · intro j k u w c c' hu hw hc hc' hjti
      have hflying : w.phase ≠ .start := by
        intro hstart
        rw [hstart] at hc'
        cases hc'
      exact h.marked j k u w c c' (hold hu (htaken hc)) (hold hw hflying) hc hc' hjti
    · intro j k u w c c' hu hw hc hc' hjti
      exact h.one j k u w c c' (hold hu (htaken hc)) (hold hw (htaken hc')) hc hc' hjti
  | tick n =>
    refine ⟨fun j k u w c c' hu hw hc hc' hjti ↦ ?_, h.one⟩
    have hlive := h.marked j k u w c c' hu hw hc hc' hjti
    rw [← hjti] at hlive ⊢
    obtain ⟨hlt, hway, hpresented⟩ := underWay_of_flying hinv hm hw hc'
    have hstays := hG k hlt
    rw [AuthPool.outlives, hway, hpresented, Option.any_some, hlive, Bool.true_and,
      Bool.true_and, Bool.not_eq_false'] at hstays
    exact hstays
  | gone i => exact h
  | fail hi hflying => exact h.keep hi (.of_none rfl rfl) fun _ hv ↦ hv

end Steps

/-! ### Runs -/

/-- **A refresh token is single-use.** -/
theorem refresh_single_use (cfg : JwtConfig) (lib : JwtLib) (s₀ : AuthState) (hs : s₀.Fresh)
    (p : AuthPool) (hr : (identityService cfg lib).Reach (noneOutlives lib) ⟨[], s₀⟩ p)
    (token : String) (i j : ℕ) (hi : p.shared.Presents i token) (hj : p.shared.Presents j token)
    (hi' : p.shared.Succeeds i) (hj' : p.shared.Succeeds j) : i = j := by
  obtain ⟨ts, hinv, hsingle, -⟩ := auth_invariant hr (fun _ _ _ _ hc ↦ hc) (authInv_fresh hs)
    (SingleUse.nil (s := s₀)) .nil
    (fun hinv h hi ha hc hx ↦ singleUse_call h hinv hi ha hc hx)
    (fun hinv h hm hG he ↦ singleUse_event h hinv hm hG he)
  obtain ⟨t, c, ht, hc, hreads⟩ := hinv.won hi hi'
  obtain ⟨u, d, hu, hd, hreads'⟩ := hinv.won hj hj'
  have hjti : c.jti = d.jti := by
    rw [hreads] at hreads'
    rw [Option.some.inj hreads']
  exact hsingle.one i j t u c d ht hu (by rw [hc]; rfl) (by rw [hd]; rfl) hjti

instance (lib : JwtLib) (i : ℕ) (o : AuthOp) (c : AuthChoice) (s : AuthState) :
    Decidable ((noneOutlives lib).onOp i o c s) :=
  inferInstanceAs (Decidable (c.fault = false))

instance (lib : JwtLib) (e : AuthEv) (p : AuthPool) : Decidable ((noneOutlives lib).onEv e p) :=
  match e with
  | .tick n =>
    inferInstanceAs (Decidable (∀ i < p.threads.length, AuthPool.outlives lib p n i = false))
  | .login _ => .isTrue trivial
  | .logout _ => .isTrue trivial
  | .refresh _ => .isTrue trivial
  | .crash _ => .isTrue trivial

/-- Two requests present alice's refresh token; both find it under the key of her phone. -/
def aliceRefreshesTwice : List (Machine.Label AuthChoice AuthEv) :=
  aliceLogsIn ++ [.event (.refresh (phoneToken 1)), .event (.refresh (phoneToken 1)),
    .call 1 {}, .call 1 {}, .call 1 {}, .call 1 (issues 2), .call 1 (issues 3),
    .call 2 {}, .call 2 {}, .call 2 {}, .call 2 (issues 4), .call 2 (issues 5),
    .call 1 {}, .call 1 {}, .call 2 {}, .call 2 {}, .call 2 {}, .call 2 {},
    .call 1 {}, .call 1 {}, .call 1 {}]

/-- The second request loses at the chain mark. -/
theorem refresh_single_use_alice :
    ({} : AuthState).Fresh ∧ ∃ p,
      (identityService phoneConfig phoneLib).Reach (noneOutlives phoneLib) ⟨[], {}⟩ p ∧
      p.shared.Presents 1 (phoneToken 1) ∧ p.shared.Presents 2 (phoneToken 1) ∧
      p.shared.Succeeds 1 ∧ ¬ p.shared.Succeeds 2 := by
  have hfresh : ({} : AuthState).Fresh := ⟨rfl, rfl, rfl, rfl, rfl, rfl, rfl, rfl, rfl⟩
  obtain ⟨p, hp, hone, htwo, hsucc⟩ := Machine.exists_of_run
    (identityService phoneConfig phoneLib) (noneOutlives phoneLib) ⟨[], {}⟩ aliceRefreshesTwice
    (fun p ↦ p.shared.Presents 1 (phoneToken 1) ∧ p.shared.Presents 2 (phoneToken 1) ∧
      p.shared.Succeeds 1) (by decide +kernel)
  refine ⟨hfresh, p, hp, hone, htwo, hsucc, fun hsucc' ↦ ?_⟩
  have heq := refresh_single_use phoneConfig phoneLib {} hfresh p hp _ 1 2 hone htwo hsucc hsucc'
  omega

end ChatNow
