import ChatNow.Pipeline.Idempotent
import ChatNow.Pipeline.KeyRelease

/-!
# Who touches the idempotency key

A request may delete its key or write over it only if it has set it to `pending` itself. The error
responses keep to this: they ask the flag that the gate has set. The publish and its callback ask
only whether the key has a name, and a request that a failing Redis has let through the gate has a
named key that may be another's. `key_touched_by_owner` says that this is the only way: as long as
no request whose gate failed open reaches the publish, every request touches the key as its owner.

The invariant (`CallsFit`) fits the calls a request has made to its phase. It needs that no value
under a key is taken for corrupt: the gate deletes a corrupt value whoever wrote it.
-/

namespace ChatNow

open Prog PipeOp SendMessage

/-! ### What the calls of a request say -/

/-- The call deletes the key or writes over it, or tries to. -/
def PipeCall.touches (k : String) : PipeCall → Bool
  | ⟨redisDel k', _⟩ => k' = k
  | ⟨redisSet k' _, _⟩ => k' = k
  | _ => false

/-- A command of the gate has failed, and the gate lets the request pass. -/
def PipeCall.gateFails : PipeCall → Bool
  | ⟨redisSetNx _ _, .thrown⟩ => true
  | ⟨redisGet _, .thrown⟩ => true
  | _ => false

/-- The gate of the request failed open, and it has published. -/
def PublishedUnowned (calls : List PipeCall) : Prop :=
  calls.any PipeCall.gateFails = true ∧ calls.any PipeCall.publishes = true

instance (calls : List PipeCall) : Decidable (PublishedUnowned calls) :=
  inferInstanceAs (Decidable (_ ∧ _))

/-- Whenever the request touched a key, it had set it to `pending` before. -/
def TouchesAsOwner (calls : List PipeCall) : Prop :=
  ∀ before e after k, calls = before ++ e :: after → PipeCall.touches k e = true →
    before.any (PipeCall.takes k) = true

section Calls

variable {calls : List PipeCall} {e : PipeCall}

theorem TouchesAsOwner.append (h : TouchesAsOwner calls)
    (he : ∀ k, PipeCall.touches k e = true → calls.any (PipeCall.takes k) = true) :
    TouchesAsOwner (calls ++ [e]) := by
  intro before e' after k heq ht
  rcases List.eq_nil_or_concat after with rfl | ⟨after, x, rfl⟩
  · obtain ⟨rfl, hx⟩ := List.append_inj' heq rfl
    exact he k (List.singleton_inj.1 hx ▸ ht)
  · have heq' : calls ++ [e] = (before ++ e' :: after) ++ [x] := by simpa using heq
    exact h before e' after k (List.append_inj' heq' rfl).1 ht

/-- A request that touched a key as its owner took it. -/
theorem TouchesAsOwner.any_takes {k : String} (h : TouchesAsOwner calls)
    (ht : calls.any (PipeCall.touches k) = true) : calls.any (PipeCall.takes k) = true := by
  obtain ⟨e, he, hek⟩ := List.any_eq_true.1 ht
  obtain ⟨before, after, rfl⟩ := List.append_of_mem he
  have hbefore := h before e after k rfl hek
  rw [List.any_append, hbefore, Bool.true_or]

theorem any_append_left {f : PipeCall → Bool} (h : calls.any f = true) :
    (calls ++ [e]).any f = true := by
  simp [h]

theorem any_append_self {f : PipeCall → Bool} (h : f e = true) : (calls ++ [e]).any f = true := by
  simp [h]

theorem PublishedUnowned.append (h : PublishedUnowned calls) : PublishedUnowned (calls ++ [e]) :=
  ⟨any_append_left h.1, any_append_left h.2⟩

end Calls

/-! ### The calls fit the phase -/

/-- The request is past the gate without having taken the key. -/
def SendPhase.Unowned : SendPhase → Prop
  | active own => own = false
  | inflight own _ => own = false
  | acked own _ => own = false
  | failing own _ => own = false
  | _ => False

/-- The request has not come upon a corrupt value. -/
def SendPhase.Clean : SendPhase → Prop
  | sawCorrupt => False
  | cleared => False
  | _ => True

/-- What the calls of a request with this key have been when it stands in this phase. -/
structure CallsFit (key : Option String) (ph : SendPhase) (calls : List PipeCall) : Prop where
  owns : ph.Holds → ∀ k, key = some k → calls.any (PipeCall.takes k) = true
  unowned : ph.Unowned → key ≠ none → calls.any PipeCall.gateFails = true
  out : ph.published ≠ none → calls.any PipeCall.publishes = true
  id_pos : ∀ msg, ph.published = some msg → 0 < msg.message.message_id.toUInt64.toNat
  clean : ph.Clean
  owner : PublishedUnowned calls ∨ TouchesAsOwner calls

namespace CallsFit

variable {key : Option String} {uid : String} {req : SendMessageReq} {ph ph' : SendPhase}
  {calls : List PipeCall} {e : PipeCall}

/-- Another phase of the same kind, after a call that touches no key. -/
theorem quiet (h : CallsFit key ph calls) (ht : ∀ k, PipeCall.touches k e = false)
    (hh : ph'.Holds → ph.Holds) (hu : ph'.Unowned → ph.Unowned)
    (hp : ∀ msg, ph'.published = some msg → ph.published = some msg)
    (hc : ph'.Clean) : CallsFit key ph' (calls ++ [e]) where
  owns hold k hk := any_append_left (h.owns (hh hold) k hk)
  unowned hun hk := any_append_left (h.unowned (hu hun) hk)
  out hne := by
    obtain ⟨msg, hmsg⟩ := Option.ne_none_iff_exists'.1 hne
    exact any_append_left (h.out (by rw [hp msg hmsg]; simp))
  id_pos msg hmsg := h.id_pos msg (hp msg hmsg)
  clean := hc
  owner := h.owner.imp (·.append) (·.append fun k hk ↦ by rw [ht k] at hk; cases hk)

/-- A published request touches its key: it owns it, or its gate failed open. -/
theorem touch {k : String} (h : CallsFit key ph calls) (hk : key = some k)
    (ht : ∀ k', PipeCall.touches k' e = true → k' = k) (hph : ph.Holds ∨ ph.Unowned)
    (hpub : ph.Unowned → ph.published ≠ none) :
    PublishedUnowned (calls ++ [e]) ∨ TouchesAsOwner (calls ++ [e]) := by
  rcases hph with hold | hun
  · exact h.owner.imp (·.append) (·.append fun k' hk' ↦ ht k' hk' ▸ h.owns hold k hk)
  · exact .inl (PublishedUnowned.append ⟨h.unowned hun (by simp [hk]), h.out (hpub hun)⟩)

/-- What was read under the key leads to no phase in which anything is held, published or
corrupt. -/
theorem look (h : CallsFit key ph calls) {cached : Option String}
    (ht : ∀ k, PipeCall.touches k e = false)
    (hread : SendPhase.ofCached cached ≠ .sawCorrupt) :
    CallsFit key (.ofCached cached) (calls ++ [e]) := by
  have hnot : ¬(SendPhase.ofCached cached).Unowned ∧ (SendPhase.ofCached cached).Clean := by
    revert hread
    rw [SendPhase.ofCached]
    generalize SendMessage.cached_state cached = state
    obtain ⟨status, id⟩ := state
    intro hread
    cases status with
    | Corrupt => exact absurd rfl hread
    | _ => exact ⟨not_false, trivial⟩
  refine h.quiet ht (fun hh ↦ (SendPhase.not_ofCached_holds cached hh).elim)
    (fun hu ↦ (hnot.1 hu).elim) (fun msg hmsg ↦ ?_) hnot.2
  rw [SendPhase.ofCached_published] at hmsg
  cases hmsg

/-- The gate lets the request pass, with the key or because a command failed. -/
theorem pass {own : Bool} (h : CallsFit key ph calls) (ht : ∀ k, PipeCall.touches k e = false)
    (htake : own = true → ∀ k, key = some k → PipeCall.takes k e = true)
    (hfail : own = false → PipeCall.gateFails e = true) :
    CallsFit key (.active own) (calls ++ [e]) where
  owns hold k hk := any_append_self (htake hold k hk)
  unowned hun _ := any_append_self (hfail hun)
  out hne := (hne rfl).elim
  id_pos msg hmsg := by cases hmsg
  clean := trivial
  owner := h.owner.imp (·.append) (·.append fun k hk ↦ by rw [ht k] at hk; cases hk)

/-- The request publishes. -/
theorem publish {own : Bool} {msg : InternalMessage} {r : Reply Unit}
    (h : CallsFit key (.active own) calls) (hmsg : Assembled uid req msg)
    (hph : ph' = .inflight own msg ∨ ph' = .failing own msg) :
    CallsFit key ph' (calls ++ [⟨publishConfirm msg, r⟩]) := by
  have hpub : PipeCall.publishes ⟨publishConfirm msg, r⟩ = true := rfl
  have howner : PublishedUnowned (calls ++ [⟨publishConfirm msg, r⟩]) ∨
      TouchesAsOwner (calls ++ [⟨publishConfirm msg, r⟩]) :=
    h.owner.imp (·.append) (·.append fun k hk ↦ by cases hk)
  rcases hph with rfl | rfl <;>
    exact ⟨fun hold k hk ↦ any_append_left (h.owns hold k hk),
      fun hun hk ↦ any_append_left (h.unowned hun hk), fun _ ↦ any_append_self hpub,
      fun m hm ↦ Option.some.inj hm ▸ hmsg.id_pos,
      trivial, howner⟩

/-- A request that publishes and its callback stay where they are, or go on, in the same hands. -/
theorem touched {k : String} (h : CallsFit key ph calls) (hk : key = some k)
    (ht : ∀ k', PipeCall.touches k' e = true → k' = k) (hph : ph.Holds ∨ ph.Unowned)
    (hpub : ph.Unowned → ph.published ≠ none)
    (hh : ph'.Holds → ph.Holds) (hu : ph'.Unowned → ph.Unowned)
    (hp : ph'.published = ph.published ∨ ph'.published = none)
    (hc : ph'.Clean) : CallsFit key ph' (calls ++ [e]) where
  owns hold k hk := any_append_left (h.owns (hh hold) k hk)
  unowned hun hk := any_append_left (h.unowned (hu hun) hk)
  out hne := by
    rcases hp with hp | hp
    · exact any_append_left (h.out (hp ▸ hne))
    · exact (hne hp).elim
  id_pos msg hmsg := by
    rcases hp with hp | hp
    · exact h.id_pos msg (hp ▸ hmsg)
    · rw [hp] at hmsg
      cases hmsg
  clean := hc
  owner := h.touch hk ht hph hpub

/-- **The step of a request.** -/
theorem call {o : PipeOp} {r : o.Res} (h : CallsFit key ph calls)
    (ha : (sendContract key uid req).allowed ph o)
    (hread : ∀ k cached, (⟨o, r⟩ : PipeCall) = ⟨redisGet k, .ok cached⟩ →
      SendPhase.ofCached cached ≠ .sawCorrupt) :
    CallsFit key ((sendContract key uid req).next ph o r) (calls ++ [⟨o, r⟩]) := by
  have hstay : (∀ k, PipeCall.touches k ⟨o, r⟩ = false) → CallsFit key ph (calls ++ [⟨o, r⟩]) :=
    fun ht ↦ h.quiet ht id id (fun _ ↦ id) h.clean
  have hsame : ∀ {k : String}, decide (k = k) = true := by simp
  cases ph with
  | start =>
    cases o with
    | reply rsp => exact hstay fun _ ↦ rfl
    | redisSetNx k v =>
      obtain ⟨hk, rfl⟩ := ha
      rcases r with ⟨_ | _⟩ | _
      · -- the key is there: the request owns nothing
        exact h.quiet (fun _ ↦ rfl) False.elim False.elim (fun _ e ↦ by cases e)
          trivial
      · refine h.pass (fun _ ↦ rfl) (fun _ k' hk' ↦ ?_) fun e ↦ by cases e
        obtain rfl := Option.some.inj (hk.symm.trans hk')
        exact hsame
      · -- the gate has thrown: the request goes on without it
        exact h.pass (fun _ ↦ rfl) (fun e ↦ by cases e) fun _ ↦ rfl
    | _ => exact ha.elim
  | refused =>
    cases o with
    | reply rsp => exact hstay fun _ ↦ rfl
    | redisGet k =>
      cases r with
      | ok cached => exact h.look (fun _ ↦ rfl) (hread k cached rfl)
      | thrown => exact h.pass (fun _ ↦ rfl) (fun e ↦ by cases e) fun _ ↦ rfl
    | _ => exact ha.elim
  | sawId id =>
    cases o with
    | reply rsp => exact hstay fun _ ↦ rfl
    | selectByClientMsg u m =>
      cases r with
      | none => exact hstay fun _ ↦ rfl
      | some msg =>
        exact h.quiet (fun _ ↦ rfl) False.elim False.elim (fun _ e ↦ by cases e)
          trivial
    | _ => exact ha.elim
  | sawPending =>
    cases o with
    | reply rsp => exact hstay fun _ ↦ rfl
    | selectByClientMsg u m =>
      cases r with
      | none => exact hstay fun _ ↦ rfl
      | some msg =>
        exact h.quiet (fun _ ↦ rfl) False.elim False.elim (fun _ e ↦ by cases e)
          trivial
    | _ => exact ha.elim
  -- no text under the key is corrupt
  | sawCorrupt | cleared => exact h.clean.elim
  | turnedAway | found _ | released | failed _ _ =>
    cases o with
    | reply rsp => exact hstay fun _ ↦ rfl
    | _ => exact ha.elim
  | active own =>
    cases o with
    | redisDel k =>
      -- only its owner deletes a key before the publish
      obtain ⟨rfl, hk⟩ := ha
      have hkey : ∀ k', PipeCall.touches k' ⟨redisDel k, r⟩ = true → k' = k :=
        fun k' hk' ↦ (of_decide_eq_true hk').symm
      cases r with
      | ok =>
        exact h.touched hk hkey (.inl rfl) (fun e ↦ by cases e) False.elim False.elim (.inr rfl)
          trivial
      | thrown =>
        exact h.touched hk hkey (.inl rfl) (fun e ↦ by cases e) id id (.inl rfl) h.clean
    | publishConfirm msg =>
      cases r with
      | ok => exact h.publish ha (.inl rfl)
      | thrown => exact h.publish ha (.inr rfl)
    | reply | allowUser | allowSession | resolveUserInfo | resolveMembers | nextSessionSeq |
      nextUserSeqBatch | nextId | nowMs => exact hstay fun _ ↦ rfl
    | _ => exact ha.elim
  | inflight own msg =>
    cases o with
    | reply rsp => exact hstay fun _ ↦ rfl
    | awaitConfirm =>
      cases r <;> exact h.quiet (fun _ ↦ rfl) id id (fun _ e ↦ e)
        trivial
    | _ => exact ha.elim
  | acked own msg =>
    cases o with
    | reply rsp => exact hstay fun _ ↦ rfl
    | redisSet k v =>
      refine h.touched ha.1 (fun k' hk' ↦ (of_decide_eq_true hk').symm) ?_
        (fun _ e ↦ by cases e) id id (.inl rfl) h.clean
      cases own
      · exact .inr rfl
      · exact .inl rfl
    | _ => exact ha.elim
  | failing own msg =>
    cases o with
    | reply rsp => exact hstay fun _ ↦ rfl
    | redisDel k =>
      have hkey : ∀ k', PipeCall.touches k' ⟨redisDel k, r⟩ = true → k' = k :=
        fun k' hk' ↦ (of_decide_eq_true hk').symm
      have hph : (SendPhase.failing own msg).Holds ∨ (SendPhase.failing own msg).Unowned := by
        cases own
        · exact .inr rfl
        · exact .inl rfl
      cases r with
      | ok =>
        exact h.touched ha hkey hph (fun _ e ↦ by cases e) False.elim False.elim (.inl rfl)
          trivial
      | thrown =>
        exact h.touched ha hkey hph (fun _ e ↦ by cases e) id id (.inl rfl) h.clean
    | _ => exact ha.elim

end CallsFit

/-- A request that has just arrived. -/
theorem callsFit_start (cfg : TransmiteConfig) (uid client_msg_id : String) :
    CallsFit (sendKey cfg uid client_msg_id) (sendStart cfg client_msg_id) [] where
  owns hold := (sendStart_not_holds cfg client_msg_id hold).elim
  unowned hun hk := by
    rw [sendStart] at hun
    rw [sendKey] at hk
    split at hun
    · exact hun.elim
    · next h => exact (hk (if_neg h)).elim
  out hne := (hne (sendStart_published cfg client_msg_id)).elim
  id_pos msg hmsg := by
    rw [sendStart_published] at hmsg
    cases hmsg
  clean := by
    rw [sendStart]
    split <;> trivial
  owner := .inr fun before e after k h ↦ by simp at h

/-! ### Every run -/

/-- What the recorded runs keep: the calls of every request fit its phase, every value under a key
can be read, and the requests and deliveries on record are threads of their kind. -/
structure OwnerInv (cfg : PipeConfig) (ts : List Thread) (s : Pipe)
    (log : Machine.Record PipeOp PipeOp.Res) : Prop where
  fits : ∀ i uid req ph, ts[i]? = some (.send uid req ph) →
    CallsFit (sendKey cfg.transmite uid req.client_msg_id) ph (Machine.Record.of i log)
  readable : ∀ k v, s.redis k = some v → Readable v
  started : ∀ e ∈ log, e.1 < ts.length
  requests : ∀ i uid req, (i, uid, req) ∈ s.requests → ∃ ph, ts[i]? = some (.send uid req ph)
  handlers : Handlers ts s

namespace OwnerInv

variable {cfg : PipeConfig} {ts : List Thread} {s s' : Pipe}
  {log : Machine.Record PipeOp PipeOp.Res} {i : ℕ}

/-- What a thread writes can be read. -/
theorem readable_written {t : Thread} {o : PipeOp} {r : o.Res} {k v : String}
    (h : OwnerInv cfg ts s log) (hi : ts[i]? = some t) (ha : (pipeContract cfg).allowed t o)
    (hw : PipeCall.Writes k v ⟨o, r⟩) : Readable v := by
  cases o with
  | redisSetNx k' v' =>
    obtain rfl : v' = v := by
      cases r with
      | ok b => exact hw.2.2
      | thrown => exact hw.2
    cases t with
    | send uid req ph =>
      cases ph with
      | start | cleared =>
        obtain ⟨-, rfl⟩ := ha
        exact readable_pending
      | _ => exact ha.elim
    | consume d ph => cases ph <;> exact ha.elim
    | sync client cid after_seq ph => cases ph <;> exact ha.elim
    | dead => exact ha.elim
  | redisSet k' v' =>
    obtain ⟨-, rfl⟩ := hw
    cases t with
    | send uid req ph =>
      cases ph with
      | acked own msg =>
        obtain ⟨-, rfl⟩ := ha
        rw [Readable, ofCached_accepted ((h.fits i uid req _ hi).id_pos msg rfl)]
        exact SendPhase.noConfusion
      | _ => exact ha.elim
    | consume d ph =>
      cases ph with
      | committed =>
        obtain ⟨-, rfl, -, hid⟩ := ha
        rw [Readable, ofCached_persisted (toNat_pos hid)]
        exact SendPhase.noConfusion
      | _ => exact ha.elim
    | sync client cid after_seq ph => cases ph <;> exact ha.elim
    | dead => exact ha.elim
  | _ => exact hw.elim

/-- A call keeps the invariant. -/
theorem call {t : Thread} {o : PipeOp} {c : Choice} {r : o.Res} (h : OwnerInv cfg ts s log)
    (hi : ts[i]? = some t) (ha : (pipeContract cfg).allowed t o)
    (hx : Pipe.exec cfg.collate i o c s = some (r, s')) :
    OwnerInv cfg (ts.set i ((pipeContract cfg).next t o r)) s' (log ++ [(i, ⟨o, r⟩)]) := by
  obtain ⟨-, hrequests⟩ := arrivals_of_exec hx
  have hlt := (List.getElem?_eq_some_iff.1 hi).1
  refine ⟨fun j uid req ph hj ↦ ?_, fun k v hv ↦ ?_, fun e he ↦ ?_, fun j uid req hj ↦ ?_, ?_⟩
  · rcases Pool.getElem?_set_cases hj with ⟨rfl, heq⟩ | ⟨hji, hj⟩
    · rw [Machine.Record.of_append_self]
      cases t with
      | send uid' req' ph' =>
        obtain ⟨rfl, rfl, rfl⟩ := Thread.send.inj heq
        refine (h.fits j uid req ph' hi).call ha fun k cached he ↦ ?_
        -- the request has read what is under the key
        cases he
        simp only [Pipe.exec] at hx
        split at hx
        · cases hx
        · cases hx
          cases hv : s.redis k with
          | none => simp [SendPhase.ofCached, SendMessage.cached_state, SendPhase.ofState]
          | some v => exact h.readable k v hv
      | consume | sync | dead => cases heq
    · rw [Machine.Record.of_append_ne fun e ↦ hji e.symm]
      exact h.fits j uid req ph hj
  · rcases redis_of_exec hx hv with ⟨hw, -⟩ | ⟨hold, -⟩
    · exact h.readable_written hi ha hw
    · exact h.readable k v hold
  · rw [List.length_set]
    rcases List.mem_append.1 he with he | he
    · exact h.started e he
    · rw [List.mem_singleton.1 he]
      exact hlt
  · obtain ⟨ph, hph⟩ := h.requests j uid req (hrequests ▸ hj)
    by_cases hji : j = i
    · subst hji
      obtain rfl := Option.some.inj (hi.symm.trans hph)
      exact ⟨_, Pool.getElem?_set_self hi⟩
    · exact ⟨ph, by rwa [List.getElem?_set_ne fun e ↦ hji e.symm]⟩
  · exact h.handlers.step (move_of_exec (G := .any) hi ha trivial hx)

/-- A thread joins. -/
theorem spawn {t : Thread} (h : OwnerInv cfg ts s log) (hredis : s'.redis = s.redis)
    (ht : ∀ uid req ph, t = .send uid req ph →
      CallsFit (sendKey cfg.transmite uid req.client_msg_id) ph [])
    (hr : ∀ i uid req, (i, uid, req) ∈ s'.requests →
      (i, uid, req) ∈ s.requests ∨ i = ts.length ∧ ∃ ph, t = .send uid req ph)
    (hh : Handlers (ts ++ [t]) s') : OwnerInv cfg (ts ++ [t]) s' log := by
  refine ⟨fun j uid req ph hj ↦ ?_, fun k v hv ↦ h.readable k v (hredis ▸ hv), fun e he ↦ ?_,
    fun j uid req hj ↦ ?_, hh⟩
  · rcases Pool.getElem?_append_cases hj with ⟨rfl, heq⟩ | ⟨-, hj⟩
    · rw [Machine.Record.of_eq_nil fun e he ↦ Nat.ne_of_lt (h.started e he)]
      exact ht uid req ph heq.symm
    · exact h.fits j uid req ph hj
  · rw [List.length_append]
    exact Nat.lt_add_right _ (h.started e he)
  · rcases hr j uid req hj with hj | ⟨rfl, ph, rfl⟩
    · obtain ⟨ph, hph⟩ := h.requests j uid req hj
      exact ⟨ph, Pool.getElem?_append_of_some hph⟩
    · exact ⟨ph, List.getElem?_concat_length⟩

theorem of_eq (h : OwnerInv cfg ts s log) (hredis : s'.redis = s.redis)
    (hr : s'.requests = s.requests) (hh : Handlers ts s') : OwnerInv cfg ts s' log :=
  ⟨h.fits, fun k v hv ↦ h.readable k v (hredis ▸ hv), h.started,
    fun i uid req hi ↦ h.requests i uid req (hr ▸ hi), hh⟩

/-- Only the threads of deliveries crash. -/
theorem crash (h : OwnerInv cfg ts s log) (hi : i ∈ s.deliveries.map (·.1))
    (hredis : s'.redis = s.redis) (hr : s'.requests = s.requests)
    (hh : Handlers (ts.set i .dead) s') : OwnerInv cfg (ts.set i .dead) s' log := by
  have hnot : ∀ uid req ph, ts[i]? ≠ some (.send uid req ph) :=
    senders_eq_none.1 (h.handlers i hi).2
  refine ⟨fun j uid req ph hj ↦ ?_, fun k v hv ↦ h.readable k v (hredis ▸ hv), fun e he ↦ ?_,
    fun j uid req hj ↦ ?_, hh⟩
  · exact h.fits j uid req ph (Pool.getElem?_of_set hj fun e ↦ by cases e)
  · rw [List.length_set]
    exact h.started e he
  · obtain ⟨ph, hph⟩ := h.requests j uid req (hr ▸ hj)
    refine ⟨ph, ?_⟩
    rw [List.getElem?_set_ne]
    · exact hph
    · rintro rfl
      exact hnot _ _ _ hph

/-- An event keeps the invariant. -/
theorem event {e : PipeEv} {ts' : List Thread} (h : OwnerInv cfg ts s log)
    (hm : EventMove cfg e ts s ts' s') (hh : Handlers ts' s') : OwnerInv cfg ts' s' log := by
  cases hm with
  | request uid req =>
    refine h.spawn rfl ?_ (fun i uid' req' hi ↦ ?_) hh
    · rintro _ _ _ ⟨⟩
      exact callsFit_start _ _ _
    · rcases List.mem_append.1 hi with hi | hi
      · exact .inl hi
      · cases List.mem_singleton.1 hi
        exact .inr ⟨rfl, _, rfl⟩
  | deliver hn => exact h.spawn rfl (fun _ _ _ e ↦ by cases e) (fun _ _ _ hi ↦ .inl hi) hh
  | sync => exact h.spawn rfl (fun _ _ _ e ↦ by cases e) (fun _ _ _ hi ↦ .inl hi) hh
  | crash hi => exact h.crash hi rfl rfl hh
  | receive | lose | pushAccept | pushAcked | pushFailed | update => exact h.of_eq rfl rfl hh

theorem init (cfg : PipeConfig) : OwnerInv cfg [] {} [] := by
  refine ⟨fun i uid req ph hi ↦ ?_, fun k v hv ↦ ?_, fun e he ↦ ?_, fun i uid req hi ↦ ?_, ?_⟩
  · cases hi
  · cases hv
  · cases he
  · cases hi
  · intro i hi
    cases hi

end OwnerInv

/-- **What every recorded run keeps.** -/
theorem owner_invariant {cfg : PipeConfig}
    {p : Pool PipeOp PipeOp.Res (Pipe × Machine.Record PipeOp PipeOp.Res)}
    (hr : (pipeline cfg).recorded.Reach .any Pipe.initRecorded p) :
    ∃ ts, OwnerInv cfg ts p.shared.1 p.shared.2 ∧
      p.Meets (pipeContract cfg) Thread.Done ts := by
  refine Machine.recorded_invariant hr ⟨[], OwnerInv.init cfg, .nil⟩ ?_ ?_
  · intro ts s log i t o c r s' h hi ha hx
    exact ⟨exec_answers hx, h.call hi ha hx⟩
  · intro ts p log e p' h hm hx
    obtain ⟨ts', hmove, hm'⟩ := move_of_env hm hx
    have hstep : Move cfg .any ts p.shared ts' p'.shared := .event trivial rfl hmove
    exact ⟨ts', h.event hmove (h.handlers.step hstep), hm'⟩

/-- **Only its owner touches the key.** In every run, whatever the interleaving and whichever
commands Redis fails: a request deletes or overwrites a key only after it has itself set it to
`pending`, unless its gate failed open and it went on to publish. -/
theorem key_touched_by_owner (cfg : PipeConfig)
    (p : Pool PipeOp PipeOp.Res (Pipe × Machine.Record PipeOp PipeOp.Res))
    (hr : (pipeline cfg).recorded.Reach .any Pipe.initRecorded p) (i : ℕ) (uid : String)
    (req : SendMessageReq) (hi : (i, uid, req) ∈ p.shared.1.requests)
    (hopen : ¬PublishedUnowned (Machine.Record.of i p.shared.2)) :
    TouchesAsOwner (Machine.Record.of i p.shared.2) := by
  obtain ⟨ts, h, -⟩ := owner_invariant hr
  obtain ⟨ph, hph⟩ := h.requests i uid req hi
  exact (h.fits i uid req ph hph).owner.resolve_left hopen

/-- Alice's publish is nacked, and she deletes the key that she took. -/
theorem key_touched_by_owner_nacked :
    ∃ p, (pipeline {}).recorded.Reach .any Pipe.initRecorded p ∧
      (Machine.Record.of 0 p.shared.2).any
        (PipeCall.touches (idempotency_key_for "alice" "m1")) = true ∧
      TouchesAsOwner (Machine.Record.of 0 p.shared.2) := by
  obtain ⟨p, hp, htouch, hreq, hopen⟩ := Machine.exists_of_run
    (pipeline {}).recorded .any Pipe.initRecorded
    (upToId ++ List.replicate 7 (.call 0 (smooth 0 .Nacked)))
    (fun p ↦
      (Machine.Record.of 0 p.shared.2).any
        (PipeCall.touches (idempotency_key_for "alice" "m1")) = true ∧
      p.shared.1.requests = [(0, "alice", textTo "c1" "m1")] ∧
      ¬PublishedUnowned (Machine.Record.of 0 p.shared.2))
    (by decide +kernel)
  exact ⟨p, hp, htouch, key_touched_by_owner {} p hp 0 "alice" (textTo "c1" "m1")
    (by rw [hreq]; exact List.mem_singleton_self _) hopen⟩

/-- While alice's first request is in flight and holds the key, Redis fails the gate of her retry.
The retry publishes, is nacked, and deletes a key that it never set. -/
theorem retry_deletes_key_of_first :
    ∃ p, (pipeline {}).recorded.Reach .any Pipe.initRecorded p ∧
      p.shared.1.requests = [(0, "alice", textTo "c1" "m1"), (1, "alice", textTo "c1" "m1")] ∧
      ¬HasEnded p 0 ∧ p.shared.1.redis (idempotency_key_for "alice" "m1") = none ∧
      ¬TouchesAsOwner (Machine.Record.of 1 p.shared.2) := by
  obtain ⟨p, hp, hreq, hend, hfree, htouch, htake⟩ := Machine.exists_of_run
    (pipeline {}).recorded .any Pipe.initRecorded
    (upToId ++ .event (.request "alice" (textTo "c1" "m1")) ::
      .call 1 { smooth 1 with fault := true } :: List.replicate 11 (.call 1 (smooth 1 .Nacked)))
    (fun p ↦
      p.shared.1.requests = [(0, "alice", textTo "c1" "m1"), (1, "alice", textTo "c1" "m1")] ∧
      ¬HasEnded p 0 ∧ p.shared.1.redis (idempotency_key_for "alice" "m1") = none ∧
      (Machine.Record.of 1 p.shared.2).any
        (PipeCall.touches (idempotency_key_for "alice" "m1")) = true ∧
      (Machine.Record.of 1 p.shared.2).any
        (PipeCall.takes (idempotency_key_for "alice" "m1")) = false)
    (by decide +kernel)
  refine ⟨p, hp, hreq, hend, hfree, fun h ↦ ?_⟩
  have htook := h.any_takes htouch
  rw [htake] at htook
  cases htook

end ChatNow
