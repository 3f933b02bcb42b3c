import ChatNow.Pipeline.Flow

/-!
# From the table to the push exchange

`onDBMessage` commits a row, then hands the message over to push, then acks its delivery. The
hand-over is made good by the outbox: a publish that throws, or whose callback is told anything but
`Acked`, ends there. What is not made good is a crash between the commit and the hand-over, and a
commit that takes effect while the handler is told that it has failed. The delivery comes again, but
the row is there already, so the duplicate branch acks it and hands nothing over
(`crash_loses_push`, `lost_reply_loses_push`).

`handed_of_crashAfterHandOver` shows that these are the only gaps: in every run in which the answer
of no commit is lost, and a handler crashes only when what it has committed has been handed over, a
committed message is handed over by the time its handler has ended and its callback has fired.
-/

namespace ChatNow

open Prog PipeOp OnDBMessage

/-- The push exchange has accepted the payload, or the outbox stores it. -/
def Pipe.Handed (s : Pipe) (payload : InternalMessage) : Prop :=
  payload ∈ s.push_exchange ∨ payload ∈ s.push_outbox

/-- A push publish of the thread waits for its callback. -/
def Pipe.Awaits (s : Pipe) (i : ℕ) (payload : InternalMessage) : Prop :=
  ∃ e ∈ s.push_pending, e.tid = i ∧ e.payload = payload

/-- A handler crashes only when what it has committed has been handed over, and is told of every
commit. -/
def crashAfterHandOver (collate : String → String) : PipeGuard where
  onOp
    | _, insertMessage row _, c, s => c.fault = true → c.late = true → conflicts collate s.rows row
    | _, _, _, _ => True
  onEv
    | .crash i, p => ∀ q ∈ p.shared.committed, q.1 = i → ∀ u ∈ p.shared.deliveries, u.1 = i →
      p.shared.Handed u.2.msg
    | _, _ => True

/-- The message of a committed row is handed over, or on its way, or its handler is about to. -/
def OnItsWay (ts : List Thread) (s : Pipe) (i : ℕ) (d : Delivery) : Prop :=
  s.Handed d.msg ∨ s.Awaits i d.msg ∨
    ∃ ph, ts[i]? = some (.consume d ph) ∧ (ph = .committed ∨ ph = .pushThrew)

/-- What the pipeline keeps of the hand-over. -/
structure HandOff (ts : List Thread) (s : Pipe) : Prop where
  handler : ∀ i d, (i, d) ∈ s.deliveries →
    (∃ ph, ts[i]? = some (.consume d ph)) ∨ ts[i]? = some .dead
  thread : ∀ i row, (i, row) ∈ s.committed → i < ts.length
  accepted : ∀ e ∈ s.push_pending, e.accepted = true → e.payload ∈ s.push_exchange
  committed : ∀ i row d, (i, row) ∈ s.committed → (i, d) ∈ s.deliveries → OnItsWay ts s i d

/-! ### Handlers over a move -/

/-- Handlers stay handlers, of the same delivery, or die. -/
structure KeepsHandlers (ts ts' : List Thread) : Prop where
  length : ts.length ≤ ts'.length
  consume : ∀ (i : ℕ) (d : Delivery) (ph : ConsumePhase), ts[i]? = some (.consume d ph) →
    (∃ ph', ts'[i]? = some (.consume d ph')) ∨ ts'[i]? = some .dead
  dead : ∀ i : ℕ, ts[i]? = some .dead → ts'[i]? = some .dead

theorem keepsHandlers_append (ts : List Thread) (t : Thread) : KeepsHandlers ts (ts ++ [t]) :=
  ⟨by simp, fun _ _ ph h ↦ .inl ⟨ph, Pool.getElem?_append_of_some h⟩,
    fun _ h ↦ Pool.getElem?_append_of_some h⟩

theorem keepsHandlers_set_other {ts : List Thread} {i : ℕ} {t u : Thread} (hi : ts[i]? = some t)
    (hc : ∀ d ph, t ≠ .consume d ph) (hd : t ≠ .dead) : KeepsHandlers ts (ts.set i u) :=
  ⟨by simp, fun _ d ph h ↦ .inl ⟨ph, Pool.getElem?_set_of_ne hi h (hc d ph)⟩,
    fun _ h ↦ Pool.getElem?_set_of_ne hi h hd⟩

theorem keepsHandlers_set_consume {ts : List Thread} {i : ℕ} {d : Delivery} {ph : ConsumePhase}
    (hi : ts[i]? = some (.consume d ph)) (ph' : ConsumePhase) :
    KeepsHandlers ts (ts.set i (.consume d ph')) := by
  refine ⟨by simp, fun j d' ph₁ hj ↦ .inl ?_, fun j hj ↦ Pool.getElem?_set_of_ne hi hj (by simp)⟩
  rcases eq_or_ne i j with rfl | hij
  · obtain ⟨rfl, rfl⟩ := Thread.consume.inj (Option.some.inj (hi.symm.trans hj))
    exact ⟨ph', List.getElem?_set_self (List.getElem?_eq_some_iff.1 hi).1⟩
  · exact ⟨ph₁, (List.getElem?_set_ne hij).trans hj⟩

theorem keepsHandlers_crash (ts : List Thread) (i : ℕ) : KeepsHandlers ts (ts.set i .dead) := by
  have hset : ∀ (j : ℕ) (u : Thread), ts[j]? = some u →
      (ts.set i .dead)[j]? = some u ∨ (ts.set i .dead)[j]? = some .dead := by
    intro j u hj
    rcases eq_or_ne i j with rfl | hij
    · exact .inr (List.getElem?_set_self (List.getElem?_eq_some_iff.1 hj).1)
    · exact .inl ((List.getElem?_set_ne hij).trans hj)
  refine ⟨by simp, fun j d ph hj ↦ ?_, fun j hj ↦ (hset j _ hj).elim id id⟩
  exact (hset j _ hj).imp (fun h ↦ ⟨ph, h⟩) id

/-! ### The invariant over a move -/

theorem OnItsWay.mono {ts ts' : List Thread} {s s' : Pipe} {i : ℕ} {d : Delivery}
    (h : OnItsWay ts s i d) (hh : s.Handed d.msg → s'.Handed d.msg)
    (ha : s.Awaits i d.msg → OnItsWay ts' s' i d)
    (ht : ∀ ph, ts[i]? = some (.consume d ph) → ph = .committed ∨ ph = .pushThrew →
      OnItsWay ts' s' i d) : OnItsWay ts' s' i d := by
  rcases h with h | h | ⟨ph, hph, hor⟩
  · exact .inl (hh h)
  · exact ha h
  · exact ht ph hph hor

namespace HandOff

variable {cfg : PipeConfig} {ts ts' : List Thread} {s s' : Pipe}

/-- A move that neither commits nor delivers. -/
theorem of_same (h : HandOff ts s) (hk : KeepsHandlers ts ts')
    (hd : s'.deliveries = s.deliveries) (hc : s'.committed = s.committed)
    (hacc : ∀ e ∈ s'.push_pending, e.accepted = true → e.payload ∈ s'.push_exchange)
    (hway : ∀ i row d, (i, row) ∈ s.committed → (i, d) ∈ s.deliveries → OnItsWay ts s i d →
      OnItsWay ts' s' i d) : HandOff ts' s' := by
  refine ⟨fun i d hi ↦ ?_, fun i row hi ↦ ?_, hacc, fun i row d hi hdel ↦ ?_⟩
  · rw [hd] at hi
    rcases h.handler i d hi with ⟨ph, hph⟩ | hph
    · exact hk.consume i d ph hph
    · exact .inr (hk.dead i hph)
  · rw [hc] at hi
    exact (h.thread i row hi).trans_le hk.length
  · rw [hc] at hi
    rw [hd] at hdel
    exact hway i row d hi hdel (h.committed i row d hi hdel)

/-- A move that leaves alone what push knows, and every handler. -/
theorem of_push_eq (h : HandOff ts s) (hk : KeepsHandlers ts ts')
    (hkeep : ∀ (i : ℕ) (d : Delivery) (ph : ConsumePhase), ts[i]? = some (.consume d ph) →
      ts'[i]? = some (.consume d ph))
    (hd : s'.deliveries = s.deliveries) (hc : s'.committed = s.committed)
    (hp : s'.push_pending = s.push_pending) (he : s'.push_exchange = s.push_exchange)
    (ho : s'.push_outbox = s.push_outbox) : HandOff ts' s' := by
  refine h.of_same hk hd hc ?_ fun i row d _ _ hway ↦ ?_
  · rw [hp, he]
    exact h.accepted
  · refine hway.mono (fun hh ↦ ?_) (fun ha ↦ .inr (.inl ?_))
      fun ph hph hor ↦ .inr (.inr ⟨ph, hkeep i d ph hph, hor⟩)
    · rw [Pipe.Handed, he, ho]
      exact hh
    · rw [Pipe.Awaits, hp]
      exact ha

/-- What a request leaves alone. -/
theorem push_of_send {collate : String → String} {key : Option String} {uid : String}
    {req : SendMessageReq} {i : ℕ} {o : PipeOp} {c : Choice} {ph ph' : SendPhase}
    (h : SendMove collate key uid req i o c ph s ph' s') :
    s'.deliveries = s.deliveries ∧ s'.committed = s.committed ∧
      s'.push_pending = s.push_pending ∧ s'.push_exchange = s.push_exchange ∧
      s'.push_outbox = s.push_outbox := by
  cases h with
  | quiet hs =>
    obtain ⟨_, _, _, rfl⟩ := hs
    exact ⟨rfl, rfl, rfl, rfl, rfl⟩
  | _ => exact ⟨rfl, rfl, rfl, rfl, rfl⟩

/-- A handler's own delivery is the one on record. -/
theorem delivery_eq (h : HandOff ts s) {i : ℕ} {d d' : Delivery} {ph : ConsumePhase}
    (hi : ts[i]? = some (.consume d ph)) (hd : (i, d') ∈ s.deliveries) : d' = d := by
  rcases h.handler i d' hd with ⟨ph', h'⟩ | h'
  · exact (Thread.consume.inj (Option.some.inj (h'.symm.trans hi))).1
  · cases h'.symm.trans hi

/-- A move of a handler. -/
theorem consume {i : ℕ} {d : Delivery} {ph ph' : ConsumePhase} {o : PipeOp} {c : Choice}
    (hout : cfg.message.push_outbox = true) (h : HandOff ts s)
    (hi : ts[i]? = some (.consume d ph)) (hG : (crashAfterHandOver cfg.collate).onOp i o c s)
    (hm : ConsumeMove cfg.collate cfg.message d i o c ph s ph' s') :
    HandOff (ts.set i (.consume d ph')) s' := by
  have hk := keepsHandlers_set_consume hi ph'
  have hnew : (ts.set i (.consume d ph'))[i]? = some (.consume d ph') :=
    List.getElem?_set_self (List.getElem?_eq_some_iff.1 hi).1
  -- the other handlers stay where they are; the one that moves is looked at case by case
  have hother : ∀ (j : ℕ) (d' : Delivery) (ph₁ : ConsumePhase), j ≠ i →
      ts[j]? = some (.consume d' ph₁) →
      (ts.set i (.consume d ph'))[j]? = some (.consume d' ph₁) := by
    intro j d' ph₁ hji hj
    exact (List.getElem?_set_ne hji.symm).trans hj
  have hway : ∀ s' : Pipe, (∀ m, s.Handed m → s'.Handed m) →
      (∀ j m, s.Awaits j m → s'.Awaits j m) →
      (ph = .committed ∨ ph = .pushThrew → OnItsWay (ts.set i (.consume d ph')) s' i d) →
      ∀ j d', (j, d') ∈ s.deliveries → OnItsWay ts s j d' →
        OnItsWay (ts.set i (.consume d ph')) s' j d' := by
    intro s' hh ha hown j d' hdel hw
    refine hw.mono (hh _) (fun h' ↦ .inr (.inl (ha j _ h'))) fun ph₁ hph₁ hor ↦ ?_
    rcases eq_or_ne j i with rfl | hji
    · obtain ⟨rfl, rfl⟩ := Thread.consume.inj (Option.some.inj (hi.symm.trans hph₁))
      exact hown hor
    · exact .inr (.inr ⟨ph₁, hother j d' ph₁ hji hph₁, hor⟩)
  cases hm with
  | commit he hph hfree =>
    obtain ⟨-, rfl⟩ : c.fault = false ∧ ph' = .committed := by
      refine hph.resolve_right ?_
      rintro ⟨hf, hl, -⟩
      exact hfree (hG hf hl)
    refine ⟨fun j d' hj ↦ ?_, fun j row hj ↦ ?_, h.accepted, fun j row d' hj hdel ↦ ?_⟩
    · rcases h.handler j d' hj with ⟨ph₁, hph₁⟩ | hph₁
      · exact hk.consume j d' ph₁ hph₁
      · exact .inr (hk.dead j hph₁)
    · rcases List.mem_append.1 hj with hj | hj
      · exact (h.thread j row hj).trans_le hk.length
      · obtain ⟨rfl, -⟩ := Prod.mk.inj (List.mem_singleton.1 hj)
        exact (List.getElem?_eq_some_iff.1 hnew).1
    · rcases eq_or_ne j i with rfl | hji
      · obtain rfl := h.delivery_eq hi hdel
        exact .inr (.inr ⟨.committed, hnew, .inl rfl⟩)
      · rcases List.mem_append.1 hj with hj | hj
        · exact hway _ (fun _ ↦ id) (fun _ _ ↦ id) (by simp) j d' hdel
            (h.committed j row d' hj hdel)
        · exact absurd (Prod.mk.inj (List.mem_singleton.1 hj)).1 hji
  | mark _ _ =>
    refine h.of_same hk rfl rfl h.accepted fun j row d' _ hdel ↦ ?_
    exact hway _ (fun _ ↦ id) (fun _ _ ↦ id) (fun _ ↦ .inr (.inr ⟨_, hnew, .inl rfl⟩)) j d' hdel
  | post =>
    refine h.of_same hk rfl rfl (fun e he hacc ↦ ?_) fun j row d' _ hdel ↦ ?_
    · rcases List.mem_append.1 he with he | he
      · exact h.accepted e he hacc
      · obtain rfl := List.mem_singleton.1 he
        cases hacc
    · refine hway _ ?_ ?_ (fun _ ↦ .inr (.inl ?_)) j d' hdel
      · exact fun _ ↦ id
      · rintro j m ⟨e, he, hrest⟩
        exact ⟨e, List.mem_append_left _ he, hrest⟩
      · exact ⟨_, List.mem_append_right _ (List.mem_singleton_self _), rfl, rfl⟩
  | enqueue _ =>
    refine h.of_same hk rfl rfl h.accepted fun j row d' _ hdel ↦ ?_
    refine hway _ ?_ ?_ (fun _ ↦ .inl (.inr ?_)) j d' hdel
    · exact fun m hm ↦ hm.imp id (List.mem_append_left _)
    · exact fun _ _ ↦ id
    · exact List.mem_append_right _ (List.mem_singleton_self _)
  | @settle _ _ _ action hno =>
    have hs : ∀ action : ConsumeAction, (s.settle i action).deliveries = s.deliveries ∧
        (s.settle i action).committed = s.committed ∧
        (s.settle i action).push_pending = s.push_pending ∧
        (s.settle i action).push_exchange = s.push_exchange ∧
        (s.settle i action).push_outbox = s.push_outbox := by
      intro action
      cases action <;> exact ⟨rfl, rfl, rfl, rfl, rfl⟩
    obtain ⟨hd, hc, hp, he, ho⟩ := hs action
    refine h.of_same hk hd hc ?_ fun j row d' _ hdel ↦ hway _ ?_ ?_ (fun hor ↦ ?_) j d' hdel
    · rw [hp, he]
      exact h.accepted
    · intro m hm
      rw [Pipe.Handed, he, ho]
      exact hm
    · intro j m hm
      rw [Pipe.Awaits, hp]
      exact hm
    · rw [hno hor] at hout
      cases hout
  | quiet _ hold =>
    refine h.of_same hk rfl rfl h.accepted fun j row d' _ hdel ↦ ?_
    refine hway _ (fun _ ↦ id) (fun _ _ ↦ id) (fun hor ↦ .inr (.inr ⟨ph', hnew, ?_⟩)) j d' hdel
    rcases hold hor with rfl | rfl
    · exact hor
    · exact .inr rfl

/-- A crash of a handler that has handed over what it has committed. -/
theorem crash {i : ℕ} (h : HandOff ts s)
    (hG : ∀ q ∈ s.committed, q.1 = i → ∀ u ∈ s.deliveries, u.1 = i → s.Handed u.2.msg) :
    HandOff (ts.set i .dead)
      { s.requeue i with push_pending := s.push_pending.filter fun e ↦ e.tid ≠ i } := by
  refine h.of_same (keepsHandlers_crash ts i) rfl rfl (fun e he hacc ↦ ?_)
    fun j row d hj hdel hw ↦ ?_
  · exact h.accepted e (List.mem_of_mem_filter he) hacc
  · rcases eq_or_ne j i with rfl | hji
    · exact .inl (hG _ hj rfl _ hdel rfl)
    · refine hw.mono id (fun ⟨e, he, htid, hpay⟩ ↦ .inr (.inl ?_)) fun ph hph hor ↦ ?_
      · exact ⟨e, List.mem_filter.2 ⟨he, by simpa [htid] using hji⟩, htid, hpay⟩
      · exact .inr (.inr ⟨ph, (List.getElem?_set_ne hji.symm).trans hph, hor⟩)

/-- A message is delivered. -/
theorem deliver {n : ℕ} {d : Delivery} (h : HandOff ts s) :
    HandOff (ts ++ [.consume d .fresh])
      { s with queue := s.queue.eraseIdx n
               unacked := s.unacked ++ [(ts.length, d)]
               deliveries := s.deliveries ++ [(ts.length, d)] } := by
  have hk := keepsHandlers_append ts (.consume d .fresh)
  refine ⟨fun j d' hj ↦ ?_, fun j row hj ↦ (h.thread j row hj).trans_le hk.length, h.accepted,
    fun j row d' hj hdel ↦ ?_⟩
  · rcases List.mem_append.1 hj with hj | hj
    · rcases h.handler j d' hj with ⟨ph, hph⟩ | hph
      · exact hk.consume j d' ph hph
      · exact .inr (hk.dead j hph)
    · obtain ⟨rfl, rfl⟩ := Prod.mk.inj (List.mem_singleton.1 hj)
      exact .inl ⟨.fresh, by simp⟩
  · rcases List.mem_append.1 hdel with hdel | hdel
    · refine (h.committed j row d' hj hdel).mono id (fun ha ↦ .inr (.inl ha)) fun ph hph hor ↦ ?_
      exact .inr (.inr ⟨ph, Pool.getElem?_append_of_some hph, hor⟩)
    · -- the new thread has committed nothing
      have hlt := h.thread j row hj
      have heq := (Prod.mk.inj (List.mem_singleton.1 hdel)).1
      omega

/-- A publish that waits is the one whose callback fires, or waits on. -/
theorem awaits_eraseIdx {n j : ℕ} {e : PushPending} {m : InternalMessage}
    (hn : s.push_pending[n]? = some e) (h : s.Awaits j m) (s' : Pipe)
    (hp : s'.push_pending = s.push_pending.eraseIdx n) : s'.Awaits j m ∨ m = e.payload := by
  obtain ⟨e', he', htid, rfl⟩ := h
  obtain ⟨k, hk⟩ := List.mem_iff_getElem?.1 he'
  rcases eq_or_ne k n with rfl | hkn
  · obtain rfl := Option.some.inj (hn.symm.trans hk)
    exact .inr rfl
  · refine .inl ⟨e', ?_, htid, rfl⟩
    rw [hp]
    exact List.mem_eraseIdx_iff_getElem?.2 ⟨k, hkn, hk⟩

/-- The callback of a push publish fires, and its payload is handed over. -/
theorem confirm {n : ℕ} {e : PushPending} (h : HandOff ts s) (hn : s.push_pending[n]? = some e)
    (hd : s'.deliveries = s.deliveries) (hc : s'.committed = s.committed)
    (hp : s'.push_pending = s.push_pending.eraseIdx n) (he : s'.push_exchange = s.push_exchange)
    (ho : ∀ m ∈ s.push_outbox, m ∈ s'.push_outbox) (hhand : s'.Handed e.payload) :
    HandOff ts s' := by
  refine h.of_same ⟨le_rfl, fun _ _ ph hj ↦ .inl ⟨ph, hj⟩, fun _ hj ↦ hj⟩ hd hc
    (fun e' he' hacc ↦ ?_) fun j row d _ _ hw ↦ ?_
  · rw [hp] at he'
    rw [he]
    exact h.accepted e' (List.mem_of_mem_eraseIdx he') hacc
  · refine hw.mono (fun hh ↦ ?_) (fun ha ↦ ?_) fun ph hph hor ↦ .inr (.inr ⟨ph, hph, hor⟩)
    · exact hh.imp (fun hm ↦ he ▸ hm) (ho _)
    · rcases awaits_eraseIdx hn ha s' hp with ha | heq
      · exact .inr (.inl ha)
      · rw [heq.symm] at hhand
        exact .inl hhand

/-- The push exchange accepts a payload. -/
theorem pushAccept {n : ℕ} {e : PushPending} (h : HandOff ts s)
    (hn : s.push_pending[n]? = some e) :
    HandOff ts { s with push_pending := s.push_pending.set n { e with accepted := true }
                        push_exchange := s.push_exchange ++ [e.payload] } := by
  refine h.of_same ⟨le_rfl, fun _ _ ph hj ↦ .inl ⟨ph, hj⟩, fun _ hj ↦ hj⟩ rfl rfl
    (fun e' he' hacc ↦ ?_) fun j row d _ _ hw ↦ ?_
  · rcases List.mem_or_eq_of_mem_set he' with he' | rfl
    · exact List.mem_append_left _ (h.accepted e' he' hacc)
    · exact List.mem_append_right _ (List.mem_singleton_self _)
  · refine hw.mono (fun hh ↦ hh.imp (List.mem_append_left _) id) (fun ha ↦ ?_)
      fun ph hph hor ↦ .inr (.inr ⟨ph, hph, hor⟩)
    obtain ⟨e', he', htid, hpay⟩ := ha
    obtain ⟨k, hk⟩ := List.mem_iff_getElem?.1 he'
    rcases eq_or_ne n k with rfl | hnk
    · obtain rfl := Option.some.inj (hn.symm.trans hk)
      exact .inl (.inl (hpay ▸ List.mem_append_right _ (List.mem_singleton_self _)))
    · exact .inr (.inl ⟨e', List.mem_of_getElem? ((List.getElem?_set_ne hnk).trans hk), htid, hpay⟩)

/-- The hand-over stays on its way through every move. -/
theorem step (hout : cfg.message.push_outbox = true) (h : HandOff ts s)
    (hm : Move cfg (crashAfterHandOver cfg.collate) ts s ts' s') : HandOff ts' s' := by
  cases hm with
  | send hi _ hm =>
    obtain ⟨hd, hc, hp, he, ho⟩ := push_of_send hm
    exact h.of_push_eq (keepsHandlers_set_other hi (by simp) (by simp))
      (fun _ _ _ hj ↦ Pool.getElem?_set_of_ne hi hj (by simp)) hd hc hp he ho
  | consume hi hG hm => exact h.consume hout hi hG hm
  | sync hi _ hm =>
    cases hm <;> exact h.of_push_eq (keepsHandlers_set_other hi (by simp) (by simp))
      (fun _ _ _ hj ↦ Pool.getElem?_set_of_ne hi hj (by simp)) rfl rfl rfl rfl rfl
  | event hG hp hm =>
    have hsame : ∀ s' : Pipe, s'.deliveries = s.deliveries → s'.committed = s.committed →
        s'.push_pending = s.push_pending → s'.push_exchange = s.push_exchange →
        s'.push_outbox = s.push_outbox → HandOff ts s' :=
      fun s' ↦ h.of_push_eq ⟨le_rfl, fun _ _ ph hj ↦ .inl ⟨ph, hj⟩, fun _ hj ↦ hj⟩ fun _ _ _ hj ↦ hj
    cases hm with
    | request =>
      exact h.of_push_eq (keepsHandlers_append ts _)
        (fun _ _ _ hj ↦ Pool.getElem?_append_of_some hj) rfl rfl rfl rfl rfl
    | sync =>
      exact h.of_push_eq (keepsHandlers_append ts _)
        (fun _ _ _ hj ↦ Pool.getElem?_append_of_some hj) rfl rfl rfl rfl rfl
    | deliver _ => exact h.deliver
    | crash _ =>
      refine h.crash ?_
      rw [← hp]
      exact hG
    | pushAccept hn => exact h.pushAccept hn
    | pushAcked hn hacc =>
      exact h.confirm hn rfl rfl rfl rfl (fun _ ↦ id)
        (.inl (h.accepted _ (List.mem_of_getElem? hn) hacc))
    | pushFailed hn _ =>
      refine h.confirm hn rfl rfl rfl rfl ?_ (.inr ?_)
      · intro m hm
        rw [if_pos hout]
        exact List.mem_append_left _ hm
      · rw [if_pos hout]
        exact List.mem_append_right _ (List.mem_singleton_self _)
    | _ => exact hsame _ rfl rfl rfl rfl rfl

end HandOff

theorem handOff_init : HandOff [] {} := ⟨by simp, by simp, by simp, by simp⟩

/-! ### The result -/

/-- The program of thread `i` has ended: it returned, or its process crashed. -/
def Ended (p : PipePool) (i : ℕ) : Prop := p.threads[i]? = some (.ret ())

/-- Each message that was committed and whose delivery was acked is with the push exchange or in the
outbox, once the handler that committed it has ended and waits for no callback. -/
def HandedToPush (p : PipePool) : Prop :=
  ∀ i row d, (i, row) ∈ p.shared.committed → (i, d) ∈ p.shared.deliveries →
    (∃ u ∈ p.shared.settled, u.2.1.msg = d.msg ∧ u.2.2 = .Ack) → Ended p i →
    (∀ e ∈ p.shared.push_pending, e.tid ≠ i) → p.shared.Handed d.msg

/-- **Persisted messages are handed to push**, in every run in which a handler crashes only when
what it has committed has been handed over, and is told of every commit. -/
theorem handed_of_crashAfterHandOver (cfg : PipeConfig) (hout : cfg.message.push_outbox = true)
    (p : PipePool) (hr : (pipeline cfg).Reach (crashAfterHandOver cfg.collate) Pipe.init p) :
    HandedToPush p := by
  obtain ⟨ts, h, hmeets⟩ := pipeline_invariant hr handOff_init fun h ↦ h.step hout
  intro i row d hc hd _ hend hcb
  rcases h.committed i row d hc hd with hh | ⟨e, he, htid, -⟩ | ⟨ph, hph, hor⟩
  · exact hh
  · exact absurd htid (hcb e he)
  · -- a handler that has returned has told the broker
    obtain ⟨t, ht, hq⟩ := hmeets.get hend
    obtain rfl := Option.some.inj (hph.symm.trans ht)
    have hdone : ph = .settled := hq
    rcases hor with rfl | rfl <;> cases hdone

instance (s : Pipe) (payload : InternalMessage) : Decidable (s.Handed payload) :=
  inferInstanceAs (Decidable (_ ∨ _))

instance (p : PipePool) (i : ℕ) : Decidable (Ended p i) :=
  match h : p.threads[i]? with
  | some (.ret ()) => .isTrue h
  | some (.call _ _) => .isFalse fun h' ↦ by cases h.symm.trans h'
  | none => .isFalse fun h' ↦ by cases h.symm.trans h'

/-- What asks something of an insert only can be decided. -/
def PipeOp.decidableOfInsert {P : PipeOp → Prop} (o : PipeOp)
    (hinsert : ∀ row timeline, Decidable (P (insertMessage row timeline)))
    (hother : (∀ row timeline, o ≠ insertMessage row timeline) → P o) : Decidable (P o) := by
  cases o with
  | insertMessage row timeline => exact hinsert row timeline
  | _ => exact .isTrue (hother fun _ _ ↦ nofun)

instance (collate : String → String) (i : ℕ) (o : PipeOp) (c : Choice) (s : Pipe) :
    Decidable ((crashAfterHandOver collate).onOp i o c s) := by
  refine o.decidableOfInsert (P := fun o ↦ (crashAfterHandOver collate).onOp i o c s)
    (fun row _ ↦ ?_) fun h ↦ ?_
  · exact decidable_of_iff (c.fault = true → c.late = true → conflicts collate s.rows row) Iff.rfl
  · cases o with
    | insertMessage row timeline => exact absurd rfl (h row timeline)
    | _ => exact trivial

instance (collate : String → String) (e : PipeEv) (p : PipePool) :
    Decidable ((crashAfterHandOver collate).onEv e p) :=
  match e with
  | .crash i => inferInstanceAs (Decidable (∀ q ∈ p.shared.committed, q.1 = i →
      ∀ u ∈ p.shared.deliveries, u.1 = i → p.shared.Handed u.2.msg))
  | .request _ _ | .receive _ | .deliver _ | .lose _ | .pushAccept _ | .pushConfirm _ _
  | .sync _ _ _ _ _ | .recallMessage _ | .deleteMessage _ => .isTrue trivial

/-- Alice's message is sent, and delivered to a handler. -/
def delivered : List PipeLabel :=
  .event (.request "alice" (textTo "c1" "m1")) :: List.replicate 10 (.call 0 (smooth 0)) ++
  .event (.receive 0) :: List.replicate 3 (.call 0 (smooth 0)) ++ [.event (.deliver 0)]

/-- The handler of thread 1 crashes; the delivery comes again, and its handler runs to the end. -/
def crashedAndRedelivered : List PipeLabel :=
  [.event (.crash 1), .event (.deliver 0), .call 2 (smooth 0), .call 2 (smooth 0),
    .call 2 (smooth 0)]

/-- The handler of thread 1 has ended after a commit, the delivery of thread 2 has been acked, both
are of one message, and no callback is outstanding. -/
def CommittedAndAcked (p : PipePool) : Prop :=
  (∃ q ∈ p.shared.committed, q.1 = 1) ∧ Ended p 1 ∧ p.shared.push_pending.length = 0 ∧
    ∃ u ∈ p.shared.deliveries, u.1 = 1 ∧ ∃ v ∈ p.shared.settled, v.2.1.msg = u.2.msg ∧ v.2.2 = .Ack

instance (p : PipePool) : Decidable (CommittedAndAcked p) :=
  inferInstanceAs (Decidable (_ ∧ Ended p 1 ∧ _ ∧ ∃ u ∈ p.shared.deliveries, _))

/-- The handler of thread 1 commits and publishes, and the push exchange accepts. -/
def handedOver : List PipeLabel :=
  List.replicate 3 (.call 1 (smooth 0)) ++ [.event (.pushAccept 0)]

/-- A handler that crashes after the push exchange has accepted the message. -/
theorem handed_after_crash :
    ∃ p, (pipeline {}).Reach (crashAfterHandOver id) Pipe.init p ∧ CommittedAndAcked p ∧
      HandedToPush p := by
  obtain ⟨p, hp, hdone⟩ := Machine.exists_of_run (pipeline {}) (crashAfterHandOver id) Pipe.init
    (delivered ++ handedOver ++ crashedAndRedelivered) CommittedAndAcked (by decide)
  exact ⟨p, hp, hdone, handed_of_crashAfterHandOver {} rfl p hp⟩

/-! ### The gap -/

/-- Committed and acked, and nowhere to be found. -/
theorem not_handedToPush {p : PipePool} (h : CommittedAndAcked p)
    (hno : ∀ u ∈ p.shared.deliveries, ¬ p.shared.Handed u.2.msg) : ¬ HandedToPush p := by
  obtain ⟨⟨⟨i, row⟩, hc, hi⟩, hend, hcb, ⟨j, d⟩, hd, hj, v, hv, hmsg, hack⟩ := h
  refine fun h ↦ hno _ hd ?_
  obtain rfl : i = 1 := hi
  obtain rfl : j = 1 := hj
  refine h 1 row d hc hd ⟨v, hv, hmsg, hack⟩ hend ?_
  rw [List.length_eq_zero_iff.1 hcb]
  simp

/-- A handler that crashes between the commit and the hand-over. -/
theorem crash_loses_push :
    ∃ p, (pipeline {}).Reach .any Pipe.init p ∧ ¬ HandedToPush p := by
  obtain ⟨p, hp, hdone, hno⟩ := Machine.exists_of_run (pipeline {}) .any Pipe.init
    (delivered ++ .call 1 (smooth 0) :: crashedAndRedelivered)
    (fun p ↦ CommittedAndAcked p ∧ ∀ u ∈ p.shared.deliveries, ¬ p.shared.Handed u.2.msg)
    (by decide)
  exact ⟨p, hp, not_handedToPush hdone hno⟩

/-- A handler whose commit takes effect and seems to have failed; nobody crashes. -/
theorem lost_reply_loses_push :
    ∃ p, (pipeline {}).Reach .any Pipe.init p ∧ ¬ HandedToPush p := by
  obtain ⟨p, hp, hdone, hno⟩ := Machine.exists_of_run (pipeline {}) .any Pipe.init
    (delivered ++ [.call 1 { smooth 0 with fault := true, late := true }, .call 1 (smooth 0),
      .event (.deliver 0)] ++ List.replicate 3 (.call 2 (smooth 0)))
    (fun p ↦ CommittedAndAcked p ∧ ∀ u ∈ p.shared.deliveries, ¬ p.shared.Handed u.2.msg)
    (by decide)
  exact ⟨p, hp, not_handedToPush hdone hno⟩

end ChatNow
