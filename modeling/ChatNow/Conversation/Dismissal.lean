import ChatNow.Conversation.ChatMachine

/-!
# Dismissal

`DismissConversation` sets one column of the conversation's row, and the members stay. Two things
undo what it is for.

* `UpdateConversation` writes back the whole row as it has read it. When it has read it before the
  dismissal, the conversation is as it was before (`ChatState.fresh` tells which reads are newer).
* `SendMessage` looks at the list of members only, and refuses a dismissed conversation as one
  without members. But the members are still there, and so is the sender.

Where neither happens, dismissal is final (`dismissal_final`). The second condition is about the
membership alone (`Conv.Lately`): the copies of it in L2 and in the L1 of every instance may be
old, and stores may fail, but none is served that names somebody who has left before the members
cache was last invalidated.
-/

namespace ChatNow

open Prog

/-! ### The assumption and the property -/

/-- The conversation has been dismissed. -/
def ConvState.Dismissed (s : ConvState) (cid : String) : Prop :=
  ∃ c, s.convs.find cid = some c ∧ c.status = .DISMISSED

instance (s : ConvState) (cid : String) : Decidable (s.Dismissed cid) :=
  decidable_of_iff ((s.convs.find cid).map (·.status) = some .DISMISSED) Option.map_eq_some_iff

/-- The row of a conversation that is written back. -/
def ChatOp.restores : ChatOp → Option Conversation
  | conv o => o.restores
  | _ => none

/-- A call to the members cache. -/
def ChatOp.isMem : ChatOp → Bool
  | mem _ => true
  | _ => false

/-- The user is a member, or has been since the members cache was last invalidated. -/
def Conv.Lately (c : Conv) (uid : String) : Prop :=
  ∃ members ∈ c.db.history.drop c.db.settled, uid ∈ members

instance (c : Conv) (uid : String) : Decidable (c.Lately uid) :=
  inferInstanceAs (Decidable (∃ members ∈ c.db.history.drop c.db.settled, _))

/-- No row that has been read before its conversation was dismissed is written back after that, and
when a message has arrived after the dismissal of its conversation, its members are looked up only
while its sender is none of them, and has been none since their cache was last invalidated. -/
def dismissalKept : Machine.Guard ChatOp ChatOp.Res ChatState ChatChoice ChatEv where
  onOp i o _ s :=
    (∀ row, o.restores = some row →
      row.status = .DISMISSED ∨ (i, row.conversation_id) ∈ s.fresh) ∧
    (o.isMem = true → ∀ x ∈ s.late, x.1 = i → ¬(s.mem.convs x.2.2).Lately x.2.1)
  onEv _ _ := True

instance (i : ℕ) (o : ChatOp) (c : ChatChoice) (s : ChatState) :
    Decidable (dismissalKept.onOp i o c s) :=
  inferInstanceAs (Decidable (_ ∧ (_ → ∀ x ∈ s.late, _)))

instance (e : ChatEv) (p : ChatPool) : Decidable (dismissalKept.onEv e p) := .isTrue trivial

/-- The threads that have given a message to the broker. -/
def Pipe.published (s : Pipe) : List ℕ := s.wire.map (·.tid)

/-- The conversation is not a normal one, and none of the threads from `n` on has given a message
for it to the broker. -/
structure ChatState.Closed (s : ChatState) (cid : String) (n : ℕ) : Prop where
  status : ∀ c, s.conv.convs.find cid = some c → c.status ≠ .NORMAL
  refused : ∀ j ∈ s.pipe.published, n ≤ j → ∀ inst uid req,
    s.calls[j]? = some (.send inst uid req) → req.conversation_id ≠ cid

/-! ### What a call does to the status -/

section Status

variable {s s' : ConvState} {i : ℕ} {o : ConvOp} {ch : ConvChoice} {cid : String}

/-- A conversation is written with the status that it has. -/
theorem status_of_write {convs : Table Conversation.conversation_id} {k : String}
    {c₀ row c : Conversation} (hrow : convs.find k = some c₀)
    (hid : row.conversation_id = c₀.conversation_id) (hstatus : row.status = c₀.status)
    (hc : convs.find cid = some c) :
    ∃ c', (convs.write row).find cid = some c' ∧ c'.status = c.status := by
  obtain rfl : k = row.conversation_id := (Table.key_of_find hrow).symm.trans hid.symm
  rcases eq_or_ne row.conversation_id cid with rfl | hne
  · obtain rfl := Option.some.inj (hrow.symm.trans hc)
    exact ⟨row, Table.find_write_self hrow, hstatus⟩
  · exact ⟨c, by rw [Table.find_write_ne _ hne]; exact hc, rfl⟩

/-- The status of a conversation stays, unless the conversation is written back. -/
theorem ConvMove.status (h : ConvMove s ch o s') {c : Conversation}
    (hc : s.convs.find cid = some c) :
    (∃ c', s'.convs.find cid = some c' ∧ c'.status = c.status) ∨
      ∃ row, o = .updateConv row ∧ row.conversation_id = cid ∧ ch.acts = true ∧
        s'.convs.find cid = some row := by
  have hsame : ∃ c', s.convs.find cid = some c' ∧ c'.status = c.status := ⟨c, hc, rfl⟩
  cases h with
  | stay hconvs _ _ => exact .inl (by rw [hconvs]; exact hsame)
  | @found c₁ convs hinsert =>
    refine .inl ⟨c, ?_, rfl⟩
    rw [Table.find_insert hinsert, if_neg]
    · exact hc
    · rintro rfl
      rw [(Table.rows_of_insert hinsert).1] at hc
      cases hc
  | @restore row c₀ hacts hfind =>
    rcases eq_or_ne row.conversation_id cid with rfl | hne
    · exact .inr ⟨row, rfl, rfl, hacts, Table.find_write_self hfind⟩
    · exact .inl ⟨c, by rw [Table.find_write_ne _ hne]; exact hc, rfl⟩
  | people _ => exact .inl hsame
  | join _ hfind => exact .inl (status_of_write hfind rfl rfl hc)
  | rewrite _ _ _ _ => exact .inl hsame
  | recount _ _ _ _ hfind => exact .inl (status_of_write hfind rfl rfl hc)
  | transfer _ _ _ _ _ hfind => exact .inl (status_of_write hfind rfl rfl hc)
  | half _ _ _ => exact .inl hsame
  | advance _ _ _ => exact .inl hsame

/-- A conversation that is new has been inserted. -/
theorem ConvMove.inserted (h : ConvMove s ch o s') {c : Conversation}
    (hnone : s.convs.find cid = none) (hc : s'.convs.find cid = some c) : o = .insertConv c := by
  have hwrite {row : Conversation} : (s.convs.write row).find cid ≠ some c := by
    intro hfind
    obtain ⟨c₀, hc₀⟩ := Table.exists_of_find_write hfind
    rw [hnone] at hc₀
    cases hc₀
  have hsame : s.convs.find cid ≠ some c := by
    rw [hnone]
    exact (Option.some_ne_none c).symm
  cases h with
  | stay hconvs _ _ => exact absurd (hconvs ▸ hc) hsame
  | @found c₁ convs hinsert =>
    have hfind : convs.find cid = some c := hc
    rw [Table.find_insert hinsert] at hfind
    split at hfind
    · exact congrArg _ (Option.some.inj hfind)
    · exact absurd hfind hsame
  | restore _ _ | join _ _ | recount _ _ _ _ _ | transfer _ _ _ _ _ _ => exact absurd hc hwrite
  | people _ | rewrite _ _ _ _ | half _ _ _ | advance _ _ _ => exact absurd hc hsame

/-- A conversation that is dismissed has been before, or a dismissed row has been written. -/
theorem ConvMove.dismissed (h : ConvMove s ch o s') (hcid : s'.Dismissed cid) :
    s.Dismissed cid ∨
      (∃ row, o = .updateConv row ∧ row.conversation_id = cid ∧ ch.acts = true ∧
        row.status = .DISMISSED) ∨
      ∃ row, o = .insertConv row ∧ row.status = .DISMISSED := by
  obtain ⟨c', hc', hstatus⟩ := hcid
  cases hc : s.convs.find cid with
  | none => exact .inr (.inr ⟨c', h.inserted hc hc', hstatus⟩)
  | some c =>
    rcases h.status hc with ⟨c₁, hc₁, hkept⟩ | ⟨row, rfl, rfl, hacts, hrow⟩
    · obtain rfl := Option.some.inj (hc₁.symm.trans hc')
      exact .inl ⟨c, hc, hkept.symm.trans hstatus⟩
    · obtain rfl := Option.some.inj (hrow.symm.trans hc')
      exact .inr (.inl ⟨row, rfl, rfl, hacts, hstatus⟩)

/-- Who is told that a row has been written back has written it. -/
theorem ConvState.find_of_updateConv {row : Conversation}
    (hx : s.exec i (.updateConv row) ch = some (true, s')) :
    s'.convs.find row.conversation_id = some row := by
  have hx' := Option.some.inj hx
  cases hfind : s.convs.find row.conversation_id with
  | none =>
    rw [hfind] at hx'
    cases (Prod.mk.inj hx').1
  | some c₀ =>
    rw [hfind] at hx'
    obtain ⟨hfault, rfl⟩ := Prod.mk.inj hx'
    have hacts : ch.acts = true := by
      rw [ConvChoice.acts, hfault, Bool.true_or]
    rw [if_pos hacts]
    exact Table.find_write_self hfind

theorem ConvState.answers_of_commit {next : Option ConvState} {r : Bool}
    (hx : s.commit ch next = (r, s')) (h : ∀ s₁, next = some s₁ → s₁.answers = s.answers) :
    s'.answers = s.answers := by
  cases next with
  | none =>
    obtain ⟨-, rfl⟩ := Prod.mk.inj hx
    rfl
  | some s₁ =>
    obtain ⟨-, rfl⟩ := Prod.mk.inj hx
    split
    · exact h s₁ rfl
    · rfl

/-- A response comes from the thread that sends it. -/
theorem ConvState.answers_of_exec {r : o.Res} (hx : s.exec i o ch = some (r, s')) :
    s'.answers = s.answers ∨ ∃ rsp, o = .respond rsp ∧ s'.answers = (i, rsp) :: s.answers := by
  cases o with
  | insertConv | appendAfterCreate | updateConv | updateMember | writeRole =>
    refine .inl (answers_of_commit (Option.some.inj hx) fun s₁ h ↦ ?_)
    obtain ⟨_, -, rfl⟩ := Option.map_eq_some_iff.1 h
    rfl
  | append =>
    refine .inl (answers_of_commit (Option.some.inj hx) fun s₁ h ↦ ?_)
    obtain ⟨_, -, h⟩ := Option.bind_eq_some_iff.1 h
    obtain ⟨_, -, rfl⟩ := Option.map_eq_some_iff.1 h
    rfl
  | writeQuit | writeRejoin =>
    refine .inl (answers_of_commit (Option.some.inj hx) fun s₁ h ↦ ?_)
    obtain ⟨_, hm, h⟩ := Option.bind_eq_some_iff.1 h
    obtain ⟨_, -, rfl⟩ := Option.map_eq_some_iff.1 hm
    obtain ⟨_, -, rfl⟩ := Option.map_eq_some_iff.1 h
    rfl
  | transferOwner cid old_owner_id new_owner_id =>
    obtain ⟨-, rfl⟩ := Prod.mk.inj (Option.some.inj hx)
    left
    split
    · unfold ConvState.transfer
      split
      · split
        · rfl
        · split <;> rfl
      · rfl
    · rfl
  | updateLastReadSeq | updateLastAckSeq =>
    obtain ⟨-, rfl⟩ := Prod.mk.inj (Option.some.inj hx)
    left
    split
    · unfold ConvState.advance
      split <;> rfl
    · rfl
  | selectMember =>
    have hx' := Option.some.inj hx
    split at hx' <;>
    · obtain ⟨-, rfl⟩ := Prod.mk.inj hx'
      exact .inl rfl
  | respond rsp =>
    obtain ⟨-, rfl⟩ := Prod.mk.inj (Option.some.inj hx)
    exact .inr ⟨rsp, rfl, rfl⟩
  | clock | uuid | selectConv | members | invalidate | esWrite =>
    obtain ⟨-, rfl⟩ := Prod.mk.inj (Option.some.inj hx)
    exact .inl rfl

end Status

/-! ### Who publishes -/

section Published

variable {s s' : Pipe} {i : ℕ}

theorem published_report (s : Pipe) (i : ℕ) (st : PublishStatus) :
    (s.report i st).published = s.published := by
  refine (List.map_map ..).trans (List.map_congr_left fun e _ ↦ ?_)
  simp only [Function.comp_apply]
  split <;> rfl

theorem published_release (s : Pipe) (i : ℕ) : (s.release i).published = s.published := by
  refine (List.map_map ..).trans (List.map_congr_left fun e _ ↦ ?_)
  simp only [Function.comp_apply]
  split <;> rfl

theorem published_settle (s : Pipe) (i : ℕ) (action : ConsumeAction) :
    (s.settle i action).published = s.published := by
  cases action <;> rfl

/-- Whoever gives a message to the broker calls `publish_confirm`. -/
theorem Pipe.published_of_exec {collate : String → String} {o : PipeOp} {r : o.Res} {c : Choice}
    (hx : Pipe.exec collate i o c s = some (r, s')) :
    s'.published = s.published ∨
      ∃ msg, o = .publishConfirm msg ∧ s'.published = s.published ++ [i] := by
  cases o with
  | publishConfirm msg =>
    refine .inr ⟨msg, rfl, ?_⟩
    simp only [Pipe.exec] at hx
    split at hx <;>
    · obtain ⟨-, rfl⟩ := Prod.mk.inj (Option.some.inj hx)
      exact List.map_append
  | settle action =>
    obtain ⟨-, rfl⟩ := Prod.mk.inj (Option.some.inj hx)
    exact .inl (published_settle s i action)
  | redisDel key =>
    obtain ⟨-, rfl⟩ := Prod.mk.inj (Option.some.inj hx)
    left
    split
    · exact published_release s i
    · rfl
  | awaitConfirm =>
    simp only [Pipe.exec] at hx
    split at hx
    · cases hx
    · obtain ⟨-, rfl⟩ := Prod.mk.inj (Option.some.inj hx)
      exact .inl (published_report s i _)
  | redisSetNx | insertMessage | nextSessionSeq =>
    simp only [Pipe.exec] at hx
    split at hx <;> obtain ⟨-, rfl⟩ := Prod.mk.inj (Option.some.inj hx)
    · exact .inl rfl
    · left
      split <;> rfl
  | redisSet | nextUserSeqBatch =>
    obtain ⟨-, rfl⟩ := Prod.mk.inj (Option.some.inj hx)
    left
    split <;> rfl
  | nextId =>
    simp only [Pipe.exec] at hx
    split at hx
    · obtain ⟨-, rfl⟩ := Prod.mk.inj (Option.some.inj hx)
      exact .inl rfl
    · split at hx
      · cases hx
      · obtain ⟨-, rfl⟩ := Prod.mk.inj (Option.some.inj hx)
        exact .inl rfl
  | redisGet | selectByClientMsg | resolveUserInfo | selectById | pushPublish | esPublish
  | selectMaxSeq =>
    simp only [Pipe.exec] at hx
    split at hx <;>
    · obtain ⟨-, rfl⟩ := Prod.mk.inj (Option.some.inj hx)
      exact .inl rfl
  | allowUser | allowSession | resolveMembers | nowMs | reply | pushEnqueue | esEnqueue
  | requireMember | selectAfter | syncReply =>
    obtain ⟨-, rfl⟩ := Prod.mk.inj (Option.some.inj hx)
    exact .inl rfl

end Published

/-! ### The invariant -/

/-- What the requests know of dismissals is so. -/
structure DismissInv (ts : List ChatCall) (s : ChatState) : Prop where
  calls : ts.map ChatCall.request = s.calls
  published : ∀ j ∈ s.pipe.published, j < s.calls.length
  answered : ∀ x ∈ s.conv.answers, x.1 < s.calls.length
  /-- A row that has been read since it was written as a dismissed one shows it. -/
  read : ∀ (i : ℕ) uid req t done c, ts[i]? = some (.conv uid req t done) → t.conv = some c →
    (i, c.conversation_id) ∈ s.fresh → s.conv.Dismissed c.conversation_id → c.status = .DISMISSED
  done : ∀ (i : ℕ) uid req t cid, ts[i]? = some (.conv uid req t true) →
    req.dismissed = some cid → s.conv.Dismissed cid
  told : ∀ (i : ℕ) uid req rsp cid, (i, .ok rsp) ∈ s.conv.answers →
    s.calls[i]? = some (.conv uid req) → req.dismissed = some cid → s.conv.Dismissed cid

section Steps

variable {ts : List ChatCall} {s : ChatState} {i j : ℕ} {cid uid : String}

namespace ChatState

variable {o : ConvOp} {r : o.Res} {acts : Bool}

/-- Only its own reads become fresh for a thread. -/
theorem mem_of_refresh (h : (j, cid) ∈ s.refresh i acts o r) (hne : j ≠ i) :
    (j, cid) ∈ s.fresh := by
  unfold refresh at h
  split at h
  · rcases List.mem_cons.1 h with heq | h
    · exact absurd (congrArg Prod.fst heq) hne
    · exact h
  · split at h
    · exact (List.mem_filter.1 h).1
    · exact h
  · exact h

/-- No read of a conversation is fresh when it has just been dismissed. -/
theorem ne_of_refresh {row : Conversation} {ok : Bool}
    (h : (j, cid) ∈ s.refresh i true (.updateConv row) ok) (hstatus : row.status = .DISMISSED) :
    row.conversation_id ≠ cid := by
  simp only [refresh, hstatus, and_self, if_true] at h
  exact fun heq ↦ of_decide_eq_true (List.mem_filter.1 h).2 heq.symm

/-- A fresh row is the one that is there, or has been fresh before. -/
theorem fresh_of_next {t : ConvCall} {ch : ConvChoice} {c' : ConvState} {c : Conversation}
    (hx : s.conv.exec i o ch = some (r, c')) (hc : (t.next o r).conv = some c)
    (hf : (i, c.conversation_id) ∈ s.refresh i ch.acts o r) :
    t.conv = some c ∧ (i, c.conversation_id) ∈ s.fresh ∨
      s.conv.convs.find c.conversation_id = some c := by
  cases o with
  | selectConv cid =>
    cases r with
    | none => exact .inl ⟨hc, hf⟩
    | some c₁ =>
      obtain rfl := Option.some.inj hc
      have hfind := ConvState.find_of_selectConv hx
      have hcid : c₁.conversation_id = cid := Table.key_of_find hfind
      exact .inr (hcid ▸ hfind)
  | updateConv row =>
    refine .inl ⟨hc, ?_⟩
    simp only [refresh] at hf
    split at hf
    · exact (List.mem_filter.1 hf).1
    · exact hf
  | insertConv | selectMember => cases r <;> exact .inl ⟨hc, hf⟩
  | _ => exact .inl ⟨hc, hf⟩

end ChatState

namespace DismissInv

theorem call_of (h : DismissInv ts s) {t : ChatCall} (hi : ts[i]? = some t) :
    s.calls[i]? = some t.request := by
  rw [← h.calls, List.getElem?_map, hi]
  rfl

theorem calls_set (h : DismissInv ts s) {t u : ChatCall} (hi : ts[i]? = some t)
    (hu : u.request = t.request) : (ts.set i u).map ChatCall.request = s.calls :=
  (Pool.map_set_eq hi hu).trans h.calls

section Conv

variable {req : ConvReq} {t : ConvCall} {done : Bool} {o : ConvOp} {r : o.Res} {ch : ConvChoice}
  {c' : ConvState} {m' : MemState}

/-- **A dismissed conversation stays dismissed** over a call that keeps to the assumption. -/
theorem kept (h : DismissInv ts s) (hi : ts[i]? = some (.conv uid req t done))
    (ha : t.allowed o) (hfresh : ∀ row, o.restores = some row →
      row.status = .DISMISSED ∨ (i, row.conversation_id) ∈ s.fresh)
    (hx : s.conv.exec i o ch = some (r, c')) (hcid : s.conv.Dismissed cid) :
    c'.Dismissed cid := by
  obtain ⟨c, hc, hstatus⟩ := hcid
  rcases (ConvMove.of_exec hx).status hc with ⟨c₁, hc₁, hkept⟩ | ⟨row, rfl, rfl, -, hrow⟩
  · exact ⟨c₁, hc₁, hkept.trans hstatus⟩
  · refine ⟨row, hrow, ?_⟩
    rcases hfresh row rfl with hdismissed | hf
    · exact hdismissed
    · -- the row that is written back has been read since the dismissal, so it shows it
      obtain ⟨-, -, c₀, hc₀, hkeeps⟩ := ha
      rw [hkeeps.conversation_id] at hf hc
      have hread := h.read i uid req t done c₀ hi hc₀ hf ⟨c, hc, hstatus⟩
      exact hkeeps.status.elim (·.trans hread) id

/-- A row that is fresh after a call shows a dismissal. -/
theorem read_next (h : DismissInv ts s) (hi : ts[i]? = some (.conv uid req t done))
    (ha : t.allowed o) (hx : s.conv.exec i o ch = some (r, c')) {uid' : String} {req' : ConvReq}
    {u : ConvCall} {done' : Bool} {c : Conversation}
    (hj : (ts.set i (.conv uid req (t.next o r) (done || req.dismisses o r)))[j]? =
      some (.conv uid' req' u done'))
    (hc : u.conv = some c) (hf : (j, c.conversation_id) ∈ s.refresh i ch.acts o r)
    (hcid : c'.Dismissed c.conversation_id) : c.status = .DISMISSED := by
  have hbefore : s.conv.Dismissed c.conversation_id := by
    rcases (ConvMove.of_exec hx).dismissed hcid with hold | ⟨row, rfl, heq, hacts, hstatus⟩ |
      ⟨row, rfl, hstatus⟩
    · exact hold
    · rw [hacts] at hf
      exact absurd heq (ChatState.ne_of_refresh hf hstatus)
    · obtain ⟨-, req₀, cid₀, now, -, rfl⟩ := ha
      cases hstatus
  rcases Pool.getElem?_set_cases hj with ⟨rfl, heq⟩ | ⟨hne, hold⟩
  · obtain ⟨-, -, rfl, -⟩ := ChatCall.conv.inj heq
    rcases ChatState.fresh_of_next hx hc hf with ⟨hconv, hfresh⟩ | hfind
    · exact h.read j uid req t done c hi hconv hfresh hbefore
    · obtain ⟨c₁, hc₁, hstatus⟩ := hbefore
      obtain rfl := Option.some.inj (hfind.symm.trans hc₁)
      exact hstatus
  · exact h.read j uid' req' u done' c hold hc (ChatState.mem_of_refresh hf hne) hbefore

/-- Whoever knows that it has dismissed a conversation has just done so, or has known it. -/
theorem dismissed_of_dismisses (hx : s.conv.exec i o ch = some (r, c'))
    (hd : req.dismisses o r = true) (hreq : req.dismissed = some cid) : c'.Dismissed cid := by
  unfold ConvReq.dismisses at hd
  split at hd
  · next row ok =>
    obtain ⟨rfl, hrow⟩ := Bool.and_eq_true_iff.1 hd
    obtain ⟨hstatus, hsame⟩ := of_decide_eq_true hrow
    obtain rfl := Option.some.inj (hreq.symm.trans hsame)
    exact ⟨row, ConvState.find_of_updateConv hx, hstatus⟩
  · cases hd

/-- **A call to the conversation service** keeps the invariant. -/
theorem conv (h : DismissInv ts s) (hi : ts[i]? = some (.conv uid req t done))
    (ha : (convContract.prod (dismissContract req)).allowed (t, done) o)
    (hfresh : ∀ row, o.restores = some row →
      row.status = .DISMISSED ∨ (i, row.conversation_id) ∈ s.fresh)
    (hx : s.conv.exec i o ch = some (r, c')) :
    DismissInv (ts.set i (.conv uid req (t.next o r) (done || req.dismisses o r)))
      { s with conv := c', mem := m', fresh := s.refresh i ch.acts o r } := by
  have hkept {cid : String} (hcid : s.conv.Dismissed cid) : c'.Dismissed cid :=
    h.kept hi ha.1 hfresh hx hcid
  have hlt : i < s.calls.length := (List.getElem?_eq_some_iff.1 (h.call_of hi)).1
  have hdone (hd : (done || req.dismisses o r) = true) {cid : String}
      (hreq : req.dismissed = some cid) : c'.Dismissed cid := by
    rcases Bool.or_eq_true_iff.1 hd with rfl | hd
    · exact hkept (h.done i uid req t cid hi hreq)
    · exact dismissed_of_dismisses hx hd hreq
  refine ⟨h.calls_set hi rfl, h.published, fun x hxmem ↦ ?_, ?_, ?_, ?_⟩
  · rcases ConvState.answers_of_exec hx with heq | ⟨rsp, -, heq⟩
    · exact h.answered x (heq ▸ hxmem)
    · rcases List.mem_cons.1 (heq ▸ hxmem) with rfl | hold
      · exact hlt
      · exact h.answered x hold
  · exact fun j uid' req' u done' c hj hc hf hcid ↦ h.read_next hi ha.1 hx hj hc hf hcid
  · intro j uid' req' u cid hj hreq
    rcases Pool.getElem?_set_cases hj with ⟨-, heq⟩ | ⟨-, hold⟩
    · obtain ⟨-, rfl, -, hd⟩ := ChatCall.conv.inj heq
      exact hdone hd.symm hreq
    · exact hkept (h.done j uid' req' u cid hold hreq)
  · intro j uid' req' rsp cid hmem hcall hreq
    rcases ConvState.answers_of_exec hx with heq | ⟨rsp', rfl, heq⟩
    · exact hkept (h.told j uid' req' rsp cid (heq ▸ hmem) hcall hreq)
    · rcases List.mem_cons.1 (heq ▸ hmem) with hnew | hold
      · -- it is answered by a thread that knows it
        obtain ⟨rfl, rfl⟩ := Prod.mk.inj hnew
        obtain ⟨-, rfl⟩ := ChatReq.conv.inj (Option.some.inj ((h.call_of hi).symm.trans hcall))
        have hknows : done = true :=
          ha.2 (by rw [hreq]; exact Option.some_ne_none cid) rsp rfl
        exact hdone (by rw [hknows, Bool.true_or]) hreq
      · exact hkept (h.told j uid' req' rsp cid hold hcall hreq)

end Conv

section Others

variable {t u : ChatCall}

/-- A call that is none to the conversation service keeps the invariant. -/
theorem other (h : DismissInv ts s) (hi : ts[i]? = some t) (hu : u.request = t.request)
    (hconv : ∀ uid req v done, u ≠ .conv uid req v done) {s' : ChatState} (hc : s'.conv = s.conv)
    (hcalls : s'.calls = s.calls) (hfresh : s'.fresh = s.fresh)
    (hpublished : s'.pipe.published = s.pipe.published ∨
      s'.pipe.published = s.pipe.published ++ [i]) : DismissInv (ts.set i u) s' := by
  have hlt : i < s.calls.length := (List.getElem?_eq_some_iff.1 (h.call_of hi)).1
  have hold {j : ℕ} {uid' : String} {req' : ConvReq} {v : ConvCall} {done : Bool}
      (hj : (ts.set i u)[j]? = some (.conv uid' req' v done)) :
      ts[j]? = some (.conv uid' req' v done) :=
    Pool.getElem?_of_set hj fun heq ↦ hconv _ _ _ _ heq.symm
  refine ⟨(h.calls_set hi hu).trans hcalls.symm, fun j hj ↦ ?_, ?_, ?_, ?_, ?_⟩
  · rw [hcalls]
    rcases hpublished with heq | heq
    · exact h.published j (heq ▸ hj)
    · rcases List.mem_append.1 (heq ▸ hj) with hbefore | hnew
      · exact h.published j hbefore
      · exact List.mem_singleton.1 hnew ▸ hlt
  · rw [hc, hcalls]
    exact h.answered
  · rw [hc, hfresh]
    exact fun j uid' req' v done c hj ↦ h.read j uid' req' v done c (hold hj)
  · rw [hc]
    exact fun j uid' req' v cid hj ↦ h.done j uid' req' v cid (hold hj)
  · rw [hc, hcalls]
    exact h.told

end Others

/-- **A call of a thread** keeps the invariant. -/
theorem call {collate : String → String} (h : DismissInv ts s) {t : ChatCall} {o : ChatOp}
    {r : o.Res} {ch : ChatChoice} {s' : ChatState} (hi : ts[i]? = some t) (ha : t.allowed o)
    (hG : dismissalKept.onOp i o ch s) (hx : s.exec collate i o ch = some (r, s')) :
    DismissInv (ts.set i (t.next o r)) s' := by
  cases o with
  | conv o =>
    cases t with
    | getMemberIds | send => exact ha.elim
    | conv auth_uid req t done =>
      obtain ⟨conv, hconv, rfl⟩ := ChatState.conv_of_exec hx
      exact h.conv hi ha hG.1 hconv
  | mem o =>
    obtain ⟨mem, -, rfl⟩ := ChatState.mem_of_exec hx
    cases t with
    | conv => exact ha.elim
    | getMemberIds | send =>
      refine h.other hi ?_ ?_ rfl rfl rfl (.inl rfl)
      · rfl
      · exact fun _ _ _ _ ↦ ChatCall.noConfusion
  | send o =>
    obtain ⟨pipe, hpipe, rfl⟩ := ChatState.send_of_exec hx
    cases t with
    | conv | getMemberIds => exact ha.elim
    | send inst uid req phases =>
      refine h.other hi ?_ ?_ rfl rfl rfl ?_
      · rfl
      · exact fun _ _ _ _ ↦ ChatCall.noConfusion
      · exact (Pipe.published_of_exec hpipe).imp_right fun ⟨_, _, heq⟩ ↦ heq

/-- The arrival of a request keeps the invariant. -/
theorem arrive (h : DismissInv ts s) (req : ChatReq) :
    DismissInv (ts ++ [req.start]) (s.arrive req) := by
  have hstart : req.start.request = req := by cases req <;> rfl
  have hold {j : ℕ} (hj : j < s.calls.length) : (s.calls ++ [req])[j]? = s.calls[j]? :=
    List.getElem?_append_left hj
  have hlen : (s.calls ++ [req]).length = s.calls.length + 1 := List.length_append
  refine ⟨?_, fun j hj ↦ ?_, fun x hx ↦ ?_, fun j uid req' t done c hj hc ↦ ?_,
    fun j uid req' t cid hj ↦ ?_, fun j uid req' rsp cid hmem hcall ↦ ?_⟩
  · show _ = s.calls ++ [req]
    rw [List.map_append, h.calls, List.map_singleton, hstart]
  · have := h.published j hj
    show j < (s.calls ++ [req]).length
    omega
  · have := h.answered x hx
    show x.1 < (s.calls ++ [req]).length
    omega
  · rcases Pool.getElem?_append_cases hj with ⟨-, heq⟩ | ⟨-, hj⟩
    · -- it has read nothing
      cases req with
      | getMemberIds | send => cases heq
      | conv uid₀ req₀ =>
        obtain ⟨-, -, rfl, -⟩ := ChatCall.conv.inj heq
        cases hc
    · exact h.read j uid req' t done c hj hc
  · rcases Pool.getElem?_append_cases hj with ⟨-, heq⟩ | ⟨-, hj⟩
    · cases req <;> cases heq
    · exact h.done j uid req' t cid hj
  · have hcall' : (s.calls ++ [req])[j]? = some (.conv uid req') := hcall
    rw [hold (h.answered _ hmem)] at hcall'
    exact h.told j uid req' rsp cid hmem hcall'

/-- What lapses keeps it. -/
theorem lapse {s' : ChatState} (h : DismissInv ts s) (hs : s.Lapses s') : DismissInv ts s' where
  calls := h.calls.trans hs.calls.symm
  published j hj := by
    rw [hs.calls]
    exact h.published j ((congrArg (j ∈ ·) hs.wire).mp hj)
  answered := by
    rw [hs.conv, hs.calls]
    exact h.answered
  read := by
    rw [hs.conv, hs.fresh]
    exact h.read
  done := by
    rw [hs.conv]
    exact h.done
  told := by
    rw [hs.conv, hs.calls]
    exact h.told

/-- What has been dismissed successfully is dismissed. -/
theorem dismissed (h : DismissInv ts s) (hcid : s.HasDismissed cid) : s.conv.Dismissed cid := by
  obtain ⟨⟨i, rsp⟩, hmem, hok, hcall⟩ := hcid
  obtain ⟨req, hreq, hdismissed⟩ := Option.bind_eq_some_iff.1 hcall
  cases rsp with
  | error e => cases hok
  | ok rsp =>
    cases req with
    | getMemberIds | send => cases hdismissed
    | conv uid req => exact h.told i uid req rsp cid hmem hreq hdismissed

/-- Before anything has happened. -/
theorem empty : DismissInv [] {} where
  calls := rfl
  published _ hj := absurd hj List.not_mem_nil
  answered _ hx := absurd hx List.not_mem_nil
  read _ _ _ _ _ _ hi := absurd (hi : none = some _) (Option.some_ne_none _).symm
  done _ _ _ _ _ hi := absurd (hi : none = some _) (Option.some_ne_none _).symm
  told _ _ _ _ _ hmem := absurd hmem List.not_mem_nil

end DismissInv

end Steps

/-! ### After the dismissal -/

/-- Who has been told of a dismissal stays told. -/
theorem ChatState.HasDismissed.mono {s s' : ChatState} {cid : String} (h : s.HasDismissed cid)
    (hanswers : s.conv.answers ⊆ s'.conv.answers) (hcalls : s.calls <+: s'.calls) :
    s'.HasDismissed cid := by
  obtain ⟨x, hx, hok, hcall⟩ := h
  obtain ⟨req, hreq, hdismissed⟩ := Option.bind_eq_some_iff.1 hcall
  obtain ⟨more, heq⟩ := hcalls
  refine ⟨x, hanswers hx, hok, ?_⟩
  rw [← heq, List.getElem?_append_left (List.getElem?_eq_some_iff.1 hreq).1, hreq]
  exact hdismissed

/-- The dismissal has been answered, and no message from thread `n` on has found its sender. -/
structure ClosedInv (cid : String) (n : ℕ) (ts : List ChatCall) (s : ChatState) : Prop where
  inv : DismissInv ts s
  cache : CacheInv ts s
  told : s.HasDismissed cid
  late : ∀ (j : ℕ) inst uid req, n ≤ j → s.calls[j]? = some (.send inst uid req) →
    req.conversation_id = cid → (j, uid, cid) ∈ s.late
  unfound : ∀ (j : ℕ) inst uid req phases, n ≤ j → ts[j]? = some (.send inst uid req phases) →
    req.conversation_id = cid → ¬FoundAmong uid phases
  refused : ∀ j ∈ s.pipe.published, n ≤ j → ∀ inst uid req,
    s.calls[j]? = some (.send inst uid req) → req.conversation_id ≠ cid

section Closed

variable {ts : List ChatCall} {s : ChatState} {i n : ℕ} {cid uid : String}

/-- Who is a member in the tables is one for the cache: the assumption leaves none of them out. -/
theorem CacheInv.lately (h : CacheInv ts s) (huid : uid ∈ s.conv.membership cid) :
    (s.mem.convs cid).Lately uid :=
  ⟨_, Versioned.fresh_current _, h.linked cid ▸ huid⟩

/-- Nobody who has left before the last invalidation is found. -/
theorem not_found_of_call {own : Bool} {phases : List ReadPhase} {o : MemOp} {r : o.Res}
    {ch : MemChoice} {late : Bool} {m m' : MemState} (h : Listing m)
    (hsound : ∀ ph ∈ phases, ph.Sound (m.convs cid).db)
    (ha : ((readContract own cid []).restart .idle).allowed phases o)
    (hx : MemState.effect i o ch late m = some (r, m')) (hgone : ¬(m.convs cid).Lately uid)
    (hbefore : ¬FoundAmong uid phases) :
    ¬FoundAmong uid (((readContract own cid []).restart .idle).next phases o r) := by
  rintro ⟨ph', hph', uids, hanswer, huid⟩
  obtain ⟨-, -, hlearns⟩ := h.call hsound ha hx
  obtain ⟨ph, hph, hlearnt⟩ := hlearns ph' hph'
  rcases hlearnt.answer uids hanswer (List.ne_nil_of_mem huid) with hold | hfresh
  · rcases List.mem_cons.1 hph with rfl | hph
    · cases hold
    · exact hbefore ⟨ph, hph, uids, hold, huid⟩
  · exact hgone ⟨uids.toFinset, hfresh, List.mem_toFinset.2 huid⟩

namespace ChatState

variable {collate : String → String} {o : ChatOp} {r : o.Res} {ch : ChatChoice} {s' : ChatState}

/-! What a call leaves as it is, and what it adds to. -/

theorem requests_of_exec (hx : s.exec collate i o ch = some (r, s')) :
    s'.calls = s.calls ∧ s'.late = s.late := by
  cases o with
  | conv o =>
    obtain ⟨conv, -, rfl⟩ := conv_of_exec hx
    exact ⟨rfl, rfl⟩
  | mem o =>
    obtain ⟨mem, -, rfl⟩ := mem_of_exec hx
    exact ⟨rfl, rfl⟩
  | send o =>
    obtain ⟨pipe, -, rfl⟩ := send_of_exec hx
    exact ⟨rfl, rfl⟩

theorem answers_subset_of_exec (hx : s.exec collate i o ch = some (r, s')) :
    s.conv.answers ⊆ s'.conv.answers := by
  cases o with
  | conv o =>
    obtain ⟨conv, hconv, rfl⟩ := conv_of_exec hx
    rcases ConvState.answers_of_exec hconv with hsame | ⟨rsp, -, hnew⟩
    · exact hsame ▸ List.Subset.refl _
    · exact hnew ▸ List.subset_cons_self _ _
  | mem o =>
    obtain ⟨mem, -, rfl⟩ := mem_of_exec hx
    exact List.Subset.refl _
  | send o =>
    obtain ⟨pipe, -, rfl⟩ := send_of_exec hx
    exact List.Subset.refl _

theorem published_of_exec (hx : s.exec collate i o ch = some (r, s')) :
    s'.pipe.published = s.pipe.published ∨ ∃ msg, o = .send (.publishConfirm msg) ∧
      s'.pipe.published = s.pipe.published ++ [i] := by
  cases o with
  | conv o =>
    obtain ⟨conv, -, rfl⟩ := conv_of_exec hx
    exact .inl rfl
  | mem o =>
    obtain ⟨mem, -, rfl⟩ := mem_of_exec hx
    exact .inl rfl
  | send o =>
    obtain ⟨pipe, hpipe, rfl⟩ := send_of_exec hx
    exact (Pipe.published_of_exec hpipe).imp_right fun ⟨msg, ho, heq⟩ ↦
      ⟨msg, congrArg ChatOp.send ho, heq⟩

end ChatState

namespace ClosedInv

/-- A call to the members cache by somebody who sends to the conversation. -/
theorem unfound_next {t : ChatCall} {o : ChatOp} {r : o.Res} {ch : ChatChoice} {s' : ChatState}
    {collate : String → String} (h : ClosedInv cid n ts s) (hi : ts[i]? = some t)
    (ha : t.allowed o) (hG : dismissalKept.onOp i o ch s)
    (hx : s.exec collate i o ch = some (r, s')) {inst : ℕ} {req : SendMessageReq}
    {phases : List ReadPhase} (hn : n ≤ i) (ht : t.next o r = .send inst uid req phases)
    (hcid : req.conversation_id = cid) : ¬FoundAmong uid phases := by
  cases t with
  | conv => cases o <;> cases ht
  | getMemberIds => cases o <;> cases ht
  | send inst' uid' req' phases' =>
    cases o with
    | conv o => exact ha.elim
    | send o =>
      obtain ⟨rfl, rfl, rfl, rfl⟩ := ChatCall.send.inj ht
      exact h.unfound i inst' uid' req' phases' hn hi hcid
    | mem o =>
      obtain ⟨rfl, rfl, rfl, rfl⟩ := ChatCall.send.inj ht
      obtain ⟨mem, hmem, -⟩ := ChatState.mem_of_exec hx
      have hlate := h.late i inst' uid' req' hn (h.inv.call_of hi) hcid
      -- a late message, so its sender has left before the last invalidation
      have hgone : ¬(s.mem.convs cid).Lately uid' := hG.2 rfl _ hlate rfl
      subst hcid
      exact not_found_of_call h.cache.listing (h.cache.sound i _ hi) ha hmem hgone
        (h.unfound i inst' uid' req' phases' hn hi rfl)

/-- **A call of a thread** keeps the invariant. -/
theorem call {t : ChatCall} {o : ChatOp} {r : o.Res} {ch : ChatChoice} {s' : ChatState}
    {collate : String → String} (h : ClosedInv cid n ts s) (hi : ts[i]? = some t)
    (ha : t.allowed o) (hG : dismissalKept.onOp i o ch s)
    (hx : s.exec collate i o ch = some (r, s')) :
    ClosedInv cid n (ts.set i (t.next o r)) s' := by
  have hinv := h.inv.call hi ha hG hx
  have hcache := h.cache.call hi ha hx
  have hunfound : ∀ (j : ℕ) inst uid req phases, n ≤ j →
      (ts.set i (t.next o r))[j]? = some (.send inst uid req phases) →
      req.conversation_id = cid → ¬FoundAmong uid phases := by
    intro j inst uid req phases hn hj hcid
    rcases Pool.getElem?_set_cases hj with ⟨rfl, heq⟩ | ⟨-, hold⟩
    · exact h.unfound_next hi ha hG hx hn heq.symm hcid
    · exact h.unfound j inst uid req phases hn hold hcid
  obtain ⟨hcalls, hlate⟩ := ChatState.requests_of_exec hx
  refine ⟨hinv, hcache, ?_, ?_, hunfound, ?_⟩
  · exact h.told.mono (ChatState.answers_subset_of_exec hx) (hcalls ▸ List.prefix_refl _)
  · rw [hcalls, hlate]
    exact h.late
  · intro j hj hn inst uid req hcall hcid
    rw [hcalls] at hcall
    rcases ChatState.published_of_exec hx with hsame | ⟨msg, rfl, hnew⟩
    · exact h.refused j (hsame ▸ hj) hn inst uid req hcall hcid
    · rcases List.mem_append.1 (hnew ▸ hj) with hold | hself
      · exact h.refused j hold hn inst uid req hcall hcid
      · -- the thread has not found its sender
        obtain rfl := List.mem_singleton.1 hself
        cases t with
        | conv | getMemberIds => exact ha.elim
        | send inst' uid' req' phases =>
          obtain ⟨rfl, rfl, rfl⟩ := ChatReq.send.inj
            (Option.some.inj ((h.inv.call_of hi).symm.trans hcall))
          exact h.unfound j inst' uid' req' phases hn hi hcid (ha msg rfl)

/-- A request arrives: if it is a message for the conversation, it is late. -/
theorem arrive (h : ClosedInv cid n ts s) (req : ChatReq) :
    ClosedInv cid n (ts ++ [req.start]) (s.arrive req) := by
  refine ⟨h.inv.arrive req, h.cache.arrive req, h.told.mono (List.Subset.refl _)
    (List.prefix_append _ _), ?_, ?_, ?_⟩
  · intro j inst uid req' hn hj hcid
    rcases Pool.getElem?_append_cases hj with ⟨rfl, rfl⟩ | ⟨-, hold⟩
    · refine List.mem_append_left _ (List.mem_map.2 ⟨(uid, cid), List.mem_filter.2 ⟨?_, ?_⟩, rfl⟩)
      · rw [← hcid]
        exact List.mem_singleton_self _
      · exact decide_eq_true h.told
    · exact List.mem_append_right _ (h.late j inst uid req' hn hold hcid)
  · intro j inst uid req' phases hn hj hcid
    rcases Pool.getElem?_append_cases hj with ⟨-, heq⟩ | ⟨-, hold⟩
    · cases req with
      | conv | getMemberIds => cases heq
      | send inst₀ uid₀ req₀ =>
        -- it has not looked yet
        obtain ⟨-, -, -, rfl⟩ := ChatCall.send.inj heq
        rintro ⟨ph, hph, uids, hanswer, -⟩
        obtain rfl := List.mem_singleton.1 hph
        cases hanswer
    · exact h.unfound j inst uid req' phases hn hold hcid
  · intro j hj hn inst uid req' hcall
    have hold : (s.calls ++ [req])[j]? = s.calls[j]? :=
      List.getElem?_append_left (h.inv.published j hj)
    exact h.refused j hj hn inst uid req' (hold.symm.trans hcall)

/-- What lapses keeps it. -/
theorem lapse {s' : ChatState} (h : ClosedInv cid n ts s) (hs : s.Lapses s') :
    ClosedInv cid n ts s' where
  inv := h.inv.lapse hs
  cache := h.cache.lapse hs
  told := h.told.mono (hs.conv ▸ List.Subset.refl _) (hs.calls ▸ List.prefix_refl _)
  late := by
    rw [hs.calls, hs.late]
    exact h.late
  unfound := h.unfound
  refused j hj := by
    rw [hs.calls]
    exact h.refused j ((congrArg (j ∈ ·) hs.wire).mp hj)

end ClosedInv

end Closed

/-! ### Over a run -/

section Run

variable {cfg : ChatConfig} {p₀ p : ChatPool}

/-- What holds before a dismissal and after it. -/
structure ChatInv (ts : List ChatCall) (s : ChatState) : Prop where
  dismiss : DismissInv ts s
  cache : CacheInv ts s

/-- The invariants hold in every run that keeps to the assumption. -/
theorem chatInv_of_reach (hr : (chatService cfg).Reach dismissalKept ⟨[], {}⟩ p) :
    ∃ ts, ChatInv ts p.shared ∧ p.Meets chatContract (fun _ ↦ True) ts := by
  refine Machine.invariant hr ⟨[], ⟨.empty, .empty⟩, .nil⟩ ?_ ?_
  · intro ts s i t o ch r s' h hi ha hG hx
    have hinv : DismissInv (ts.set i (t.next o r)) s' := h.dismiss.call hi ha hG hx
    exact ⟨ChatCall.admits_of_exec ha hx, hinv, h.cache.call hi ha hx⟩
  · intro ts p e p' h hm _ hx
    rcases event_cases hm hx with ⟨req, heq, hm'⟩ | ⟨hs, hm'⟩
    · rw [heq]
      exact ⟨_, ⟨h.dismiss.arrive req, h.cache.arrive req⟩, hm'⟩
    · exact ⟨ts, ⟨h.dismiss.lapse hs, h.cache.lapse hs⟩, hm'⟩

/-- **Dismissal is final** in the runs in which no row is written back that has been read before its
conversation was dismissed, and nobody sends to a dismissed one who is a member of it or has been
since its members cache was last invalidated: once a `DismissConversation` has been answered, the
conversation is never a normal one again, and no message that arrives from then on is accepted for
it. -/
theorem dismissal_final (h₀ : (chatService cfg).Reach dismissalKept ⟨[], {}⟩ p₀)
    {cid : String} (hcid : p₀.shared.HasDismissed cid)
    (hr : (chatService cfg).Reach dismissalKept p₀ p) :
    p.shared.Closed cid p₀.threads.length := by
  obtain ⟨ts₀, ⟨hinv, hcache⟩, hmeets⟩ := chatInv_of_reach h₀
  have hlen : p₀.threads.length = ts₀.length := hmeets.length_eq
  have hcalls : p₀.shared.calls.length = ts₀.length := by rw [← hinv.calls, List.length_map]
  have hclosed : ClosedInv cid p₀.threads.length ts₀ p₀.shared := by
    refine ⟨hinv, hcache, hcid, fun j inst uid req hn hj ↦ ?_,
      fun j inst uid req phases hn hj ↦ ?_, fun j hj hn ↦ ?_⟩
    · have := (List.getElem?_eq_some_iff.1 hj).1
      omega
    · have := (List.getElem?_eq_some_iff.1 hj).1
      omega
    · have := hinv.published j hj
      omega
  obtain ⟨ts, h, -⟩ : ∃ ts, ClosedInv cid p₀.threads.length ts p.shared ∧
      p.Meets chatContract (fun _ ↦ True) ts := by
    refine Machine.invariant hr ⟨ts₀, hclosed, hmeets⟩ ?_ ?_
    · exact fun h hi ha hG hx ↦ ⟨ChatCall.admits_of_exec ha hx, h.call hi ha hG hx⟩
    · intro ts p e p' h hm _ hx
      rcases event_cases hm hx with ⟨req, heq, hm'⟩ | ⟨hs, hm'⟩
      · rw [heq]
        exact ⟨_, h.arrive req, hm'⟩
      · exact ⟨ts, h.lapse hs, hm'⟩
  refine ⟨fun c hc hnormal ↦ ?_, h.refused⟩
  obtain ⟨c₁, hc₁, hstatus⟩ := h.inv.dismissed h.told
  obtain rfl := Option.some.inj (hc.symm.trans hc₁)
  rw [hnormal] at hstatus
  cases hstatus

end Run

/-! ### Concrete runs -/

abbrev ChatLabel := Machine.Label ChatChoice ChatEv

/-- A thread makes some calls at which nothing fails. -/
def going (i n : ℕ) : List ChatLabel :=
  List.replicate n (.call i { conv := { uuid := "1" }, send := smooth 0 })

/-- A request arrives, and its thread makes some calls. -/
def served (i n : ℕ) (req : ChatReq) : List ChatLabel := .event (.arrive req) :: going i n

/-- The conversation service is asked for the members. -/
def askedFor (i : ℕ) (order : List String) : List ChatLabel :=
  [.call i { mem := { order := order } }]

/-- Alice creates a group with bob. -/
def aliceOpens : List ChatLabel :=
  served 0 8 (.conv "alice" (.create { type := .GROUP, member_ids := ["bob"] }))

/-- She gives it a name. -/
def aliceNames (i n : ℕ) : List ChatLabel :=
  served i n (.conv "alice" (.update { conversation_id := "g_1", name := some "team" }))

/-- She dismisses it. -/
def aliceDismisses (i : ℕ) : List ChatLabel := served i 7 (.conv "alice" (.dismiss "g_1"))

/-- Bob sends to the group, on the first instance, which keeps the members. -/
def bobSends : List ChatLabel :=
  served 1 12 (.send 0 "bob" (textTo "g_1" "")) ++ askedFor 1 ["alice", "bob"] ++ going 1 9

/-- Bob leaves it. -/
def bobLeaves : List ChatLabel := served 3 9 (.conv "bob" (.quit "g_1"))

/-- He sends to it again, on the same instance. -/
def bobSendsAgain : List ChatLabel :=
  served 4 14 (.send 0 "bob" (textTo "g_1" "")) ++ askedFor 4 ["alice"] ++ going 4 5

/-- After the dismissal bob, who has sent to the group before, leaves it and sends once more. The
instance still has him among the members, and he is refused; and alice gives the group a name. -/
theorem dismissal_final_bob :
    ∃ p₀ p, (chatService { conversation := ⟨""⟩ }).Reach dismissalKept ⟨[], {}⟩ p₀ ∧
      p₀.shared.HasDismissed "g_1" ∧ p₀.shared.pipe.published = [1] ∧
      (p₀.shared.mem.l1 0 "g_1").map (·.members) = some ["alice", "bob"] ∧
      (chatService { conversation := ⟨""⟩ }).Reach dismissalKept p₀ p ∧
      p.shared.pipe.replies.map (fun x ↦ (x.1, x.2.header.error_code)) =
        [(4, error.kConversationNotMember)] ∧
      (p.shared.conv.convs.find "g_1").map (·.conversation_name) = some "team" ∧
      p.shared.Closed "g_1" p₀.threads.length := by
  obtain ⟨p₀, h₀, hcid, hpublished, hl1, hrun⟩ := Machine.exists_of_run
    (chatService { conversation := ⟨""⟩ }) dismissalKept ⟨[], {}⟩
    (aliceOpens ++ bobSends ++ aliceDismisses 2)
    (fun p₀ ↦ p₀.shared.HasDismissed "g_1" ∧ p₀.shared.pipe.published = [1] ∧
      (p₀.shared.mem.l1 0 "g_1").map (·.members) = some ["alice", "bob"] ∧
      ((chatService { conversation := ⟨""⟩ }).run dismissalKept p₀
        (bobLeaves ++ bobSendsAgain ++ aliceNames 5 7)).any (fun p ↦
          p.shared.pipe.replies.map (fun x ↦ (x.1, x.2.header.error_code)) =
              [(4, error.kConversationNotMember)] ∧
            (p.shared.conv.convs.find "g_1").map (·.conversation_name) = some "team") = true)
    (by decide +kernel)
  obtain ⟨p, hr, hreply, hname⟩ := Machine.exists_of_run _ _ _ _ _ hrun
  exact ⟨p₀, p, h₀, hcid, hpublished, hl1, hr, hreply, hname, dismissal_final h₀ hcid hr⟩

/-- Alice sends to the group, and the broker acknowledges the message. -/
def aliceSends : List ChatLabel :=
  served 3 12 (.send 0 "alice" (textTo "g_1" "")) ++ askedFor 3 ["alice", "bob"] ++ going 3 9 ++
    [.event (.receive 0)] ++ going 3 2

/-- **A dismissed group goes on**: alice dismisses it while a request to give it a name has read its
row. Then she sends a message to it, which is accepted, and the row is written back. -/
theorem dismissal_undone :
    ∃ p₀ p, (chatService { conversation := ⟨""⟩ }).Reach .any ⟨[], {}⟩ p₀ ∧
      p₀.shared.HasDismissed "g_1" ∧ p₀.shared.conv.Dismissed "g_1" ∧
      p₀.shared.conv.membership "g_1" = {"alice", "bob"} ∧ p₀.threads.length = 3 ∧
      (chatService { conversation := ⟨""⟩ }).Reach .any p₀ p ∧
      p.shared.pipe.replies.map (fun x ↦ (x.1, x.2.header.success)) = [(3, true)] ∧
      p.shared.pipe.published = [3] ∧
      (p.shared.conv.convs.find "g_1").map (·.status) = some .NORMAL ∧
      ¬p.shared.Closed "g_1" p₀.threads.length := by
  obtain ⟨p₀, h₀, hcid, hdismissed, hmembers, hlen, hrun⟩ := Machine.exists_of_run
    (chatService { conversation := ⟨""⟩ }) .any ⟨[], {}⟩
    (aliceOpens ++ aliceNames 1 2 ++ aliceDismisses 2)
    (fun p₀ ↦ p₀.shared.HasDismissed "g_1" ∧ p₀.shared.conv.Dismissed "g_1" ∧
      p₀.shared.conv.membership "g_1" = {"alice", "bob"} ∧ p₀.threads.length = 3 ∧
      ((chatService { conversation := ⟨""⟩ }).run .any p₀ (aliceSends ++ going 1 2)).any (fun p ↦
          p.shared.pipe.replies.map (fun x ↦ (x.1, x.2.header.success)) = [(3, true)] ∧
            p.shared.pipe.published = [3] ∧
            (p.shared.conv.convs.find "g_1").map (·.status) = some .NORMAL) = true)
    (by decide +kernel)
  obtain ⟨p, hr, hreply, hpublished, hnormal⟩ := Machine.exists_of_run _ _ _ _ _ hrun
  refine ⟨p₀, p, h₀, hcid, hdismissed, hmembers, hlen, hr, hreply, hpublished, hnormal,
    fun hclosed ↦ ?_⟩
  obtain ⟨c, hc, hstatus⟩ := Option.map_eq_some_iff.1 hnormal
  exact hclosed.status c hc hstatus

end ChatNow
