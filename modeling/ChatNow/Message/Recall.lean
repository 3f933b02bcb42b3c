import ChatNow.Message.Contract

/-!
# A message is recalled once

`MsgState.RecalledOnce` says of a message that one call recalls it at most, that every other call
that gets as far as the update is told that it has been recalled, and that the members are told
once.

The DAO calls its update race-safe, but reads the row in one statement and writes it back by its id
in another: two calls that have both read a row that is NORMAL both write it, and both succeed
(`message_recalled_twice`). `message_recalled_once` is about the runs in which the row that is
written is still NORMAL. What a thread has done is then read off how far it has come
(`MsgThread.Did`), and no row that has been recalled is written again.
-/

namespace ChatNow

open Prog

/-- The message that a notice calls recalled. -/
def PushPayload.recalledMid : PushPayload → Option UInt64
  | recalled _ mid => some mid.toUInt64
  | _ => none

namespace MsgState

variable (s : MsgState)

/-- Thread `i` recalls the message. -/
def Recalls (mid : UInt64) (i : ℕ) : Prop :=
  ∃ uid req, s.calls[i]? = some (.recalls uid req) ∧ req.mid = mid

/-- How many notices call the message recalled. -/
def notices (mid : UInt64) : ℕ := s.published.countP fun x ↦ x.2.recalledMid = some mid

/-- One call at most recalls the message, the others fail, and the members are told once. -/
structure RecalledOnce (mid : UInt64) : Prop where
  one_succeeds : ∀ i j, s.Recalls mid i → s.Recalls mid j → (i, .ok ()) ∈ s.answers →
    (j, .ok ()) ∈ s.answers → i = j
  others_fail : ∀ i e, s.Recalls mid i → (i, .error e) ∈ s.answers →
    e.code = error.kMessageAlreadyRecalled ∨ i ∉ s.tried ∧ e ∈ recall_refusals
  notices_le_one : s.notices mid ≤ 1
  notices_eq_one : ∀ i, s.Recalls mid i → (i, .ok ()) ∈ s.answers → s.notices mid = 1

end MsgState

/-- The row that a recall is written to is still NORMAL. -/
def stillNormal : Machine.Guard MsgOp MsgOp.Res MsgState MsgChoice MsgEv where
  onOp _ o c s :=
    match o with
    | .updateRecalled m => c.acts = true →
        (s.messages.find m.message_id).all (·.status = .NORMAL) = true
    | _ => True
  onEv _ _ := True

/-! ### What a thread has done -/

/-- Whether a thread has come to the update, and its commits, notices and answers. -/
inductive MsgThread.Did : MsgThread → Prop → List UInt64 → List PushPayload →
    List (Except ServiceError Unit) → Prop
  | idle {uid : String} {req : MessageRef} {tried : Prop} (ht : ¬tried) :
      Did ⟨.recalls uid req, .idle⟩ tried [] [] []
  | holds {uid : String} {req : MessageRef} {tried : Prop} {m : MessageRow}
      (hm : m.message_id = req.mid) : Did ⟨.recalls uid req, .holds m⟩ tried [] [] []
  | won {uid : String} {req : MessageRef} {tried : Prop} :
      Did ⟨.recalls uid req, .decided true⟩ tried [req.mid] [] []
  | lost {uid : String} {req : MessageRef} {tried : Prop} {revoked : List UInt64} :
      Did ⟨.recalls uid req, .decided false⟩ tried revoked [] []
  | announced {uid : String} {req : MessageRef} {tried : Prop} :
      Did ⟨.recalls uid req, .announced⟩ tried [req.mid]
        [.recalled req.conversation_id req.message_id] []
  | succeeded {uid : String} {req : MessageRef} {tried : Prop} :
      Did ⟨.recalls uid req, .closed (.ok ())⟩ tried [req.mid]
        [.recalled req.conversation_id req.message_id] [.ok ()]
  | failed {uid : String} {req : MessageRef} {tried : Prop} {revoked : List UInt64}
      {e : ServiceError}
      (he : e.code = error.kMessageAlreadyRecalled ∨ ¬tried ∧ e ∈ recall_refusals) :
      Did ⟨.recalls uid req, .closed (.error e)⟩ tried revoked [] [.error e]
  | other {c : MsgCall} {phase : MsgPhase} {tried : Prop} {notices : List PushPayload}
      {answers : List (Except ServiceError Unit)} (hc : ∀ uid req, c ≠ .recalls uid req)
      (hn : ∀ n ∈ notices, n.recalledMid = none) : Did ⟨c, phase⟩ tried [] notices answers

namespace MsgThread.Did

variable {uid : String} {req : MessageRef} {c : MsgCall} {phase : MsgPhase} {tried : Prop}
  {revoked : List UInt64} {notices : List PushPayload} {answers : List (Except ServiceError Unit)}

theorem of_idle (h : Did ⟨.recalls uid req, .idle⟩ tried revoked notices answers) :
    ¬tried ∧ revoked = [] ∧ notices = [] ∧ answers = [] := by
  cases h with
  | idle ht => exact ⟨ht, rfl, rfl, rfl⟩
  | other hc _ => exact absurd rfl (hc uid req)

theorem of_holds {m : MessageRow}
    (h : Did ⟨.recalls uid req, .holds m⟩ tried revoked notices answers) :
    m.message_id = req.mid ∧ revoked = [] ∧ notices = [] ∧ answers = [] := by
  cases h with
  | holds hm => exact ⟨hm, rfl, rfl, rfl⟩
  | other hc _ => exact absurd rfl (hc uid req)

theorem of_decided {ok : Bool}
    (h : Did ⟨.recalls uid req, .decided ok⟩ tried revoked notices answers) :
    (ok = true → revoked = [req.mid]) ∧ notices = [] ∧ answers = [] := by
  cases h with
  | won => exact ⟨fun _ ↦ rfl, rfl, rfl⟩
  | lost => exact ⟨fun h ↦ absurd h Bool.false_ne_true, rfl, rfl⟩
  | other hc _ => exact absurd rfl (hc uid req)

theorem of_announced (h : Did ⟨.recalls uid req, .announced⟩ tried revoked notices answers) :
    revoked = [req.mid] ∧ notices = [.recalled req.conversation_id req.message_id] ∧
      answers = [] := by
  cases h with
  | announced => exact ⟨rfl, rfl, rfl⟩
  | other hc _ => exact absurd rfl (hc uid req)

theorem of_other (h : Did ⟨c, phase⟩ tried revoked notices answers)
    (hc : ∀ uid req, c ≠ .recalls uid req) :
    revoked = [] ∧ ∀ n ∈ notices, n.recalledMid = none := by
  cases h with
  | other _ hn => exact ⟨rfl, hn⟩
  | idle | holds | won | lost | announced | succeeded | failed => exact absurd rfl (hc _ _)

/-- Who calls a message recalled has recalled it, and has published nothing else. -/
theorem of_notice {t : MsgThread} {n : PushPayload} {mid : UInt64}
    (h : Did t tried revoked notices answers) (hn : n ∈ notices) (hmid : n.recalledMid = some mid) :
    mid ∈ revoked ∧ notices.length ≤ 1 := by
  cases h with
  | announced | succeeded =>
    rw [List.mem_singleton.1 hn] at hmid
    obtain rfl := Option.some.inj hmid
    exact ⟨List.mem_singleton_self _, Nat.le_refl 1⟩
  | idle | holds | won | lost | failed => exact absurd hn List.not_mem_nil
  | other _ hnone =>
    rw [hnone n hn] at hmid
    cases hmid

theorem of_ok (h : Did ⟨.recalls uid req, phase⟩ tried revoked notices answers)
    (hok : .ok () ∈ answers) :
    req.mid ∈ revoked ∧ .recalled req.conversation_id req.message_id ∈ notices := by
  cases h with
  | succeeded => exact ⟨List.mem_singleton_self _, List.mem_singleton_self _⟩
  | idle | holds | won | lost | announced => exact absurd hok List.not_mem_nil
  | failed =>
    have heq := List.mem_singleton.1 hok
    cases heq
  | other hc _ => exact absurd rfl (hc uid req)

theorem of_error {e : ServiceError}
    (h : Did ⟨.recalls uid req, phase⟩ tried revoked notices answers) (he : .error e ∈ answers) :
    e.code = error.kMessageAlreadyRecalled ∨ ¬tried ∧ e ∈ recall_refusals := by
  cases h with
  | failed hwhy =>
    obtain rfl := Except.error.inj (List.mem_singleton.1 he)
    exact hwhy
  | idle | holds | won | lost | announced => exact absurd he List.not_mem_nil
  | succeeded =>
    have heq := List.mem_singleton.1 he
    cases heq
  | other hc _ => exact absurd rfl (hc uid req)

end MsgThread.Did

/-- What thread `i` has done in the state. -/
def MsgThread.DidIn (t : MsgThread) (s : MsgState) (i : ℕ) : Prop :=
  t.Did (i ∈ s.tried) (Pool.entries i s.revoked) (Pool.entries i s.published)
    (Pool.entries i s.answers)

/-- The tables and the records of the calls agree. -/
structure RecallInv (ts : List MsgThread) (s : MsgState) : Prop where
  calls : s.calls = ts.map (·.call)
  did : ∀ i (t : MsgThread), ts[i]? = some t → t.DidIn s i
  fresh : ∀ i, ts[i]? = none → i ∉ s.tried ∧ Pool.entries i s.revoked = [] ∧
    Pool.entries i s.published = [] ∧ Pool.entries i s.answers = []
  revoked : ∀ x ∈ s.revoked, ∃ r, s.messages.find x.2 = some r ∧ r.status = .REVOKED
  once : (s.revoked.map (·.2)).Nodup

section Steps

variable {ts : List MsgThread} {s s' : MsgState} {i : ℕ} {t t' : MsgThread}

/-- What the other threads have done is the same. -/
structure SameFor (s s' : MsgState) (j : ℕ) : Prop where
  tried : j ∈ s'.tried ↔ j ∈ s.tried
  revoked : Pool.entries j s'.revoked = Pool.entries j s.revoked
  published : Pool.entries j s'.published = Pool.entries j s.published
  answers : Pool.entries j s'.answers = Pool.entries j s.answers

theorem SameFor.refl (s : MsgState) (j : ℕ) : SameFor s s j := ⟨Iff.rfl, rfl, rfl, rfl⟩

theorem SameFor.didIn {j : ℕ} (h : SameFor s s' j) (ht : t.DidIn s j) : t.DidIn s' j := by
  rw [MsgThread.DidIn, h.revoked, h.published, h.answers, propext h.tried]
  exact ht

/-- The step of a thread, from what it has done after it. -/
theorem RecallInv.move (h : RecallInv ts s) (hi : ts[i]? = some t) (ht : t'.call = t.call)
    (hcalls : s'.calls = s.calls) (hsame : ∀ j, j ≠ i → SameFor s s' j) (hdid : t'.DidIn s' i)
    (hrevoked : ∀ x ∈ s'.revoked, ∃ r, s'.messages.find x.2 = some r ∧ r.status = .REVOKED)
    (honce : (s'.revoked.map (·.2)).Nodup) : RecallInv (ts.set i t') s' where
  calls := by rw [hcalls, h.calls, Pool.map_set_eq hi ht]
  did j u hu := by
    rcases Pool.getElem?_set_cases hu with ⟨rfl, rfl⟩ | ⟨hji, hu⟩
    · exact hdid
    · exact (hsame j hji).didIn (h.did j u hu)
  fresh j hj := by
    have hlen := List.getElem?_eq_none_iff.1 hj
    rw [List.length_set] at hlen
    have hj' : ts[j]? = none := List.getElem?_eq_none hlen
    have hji : j ≠ i := by
      rintro rfl
      rw [hj'] at hi
      cases hi
    have hs := hsame j hji
    rw [hs.revoked, hs.published, hs.answers, propext hs.tried]
    exact h.fresh j hj'
  revoked := hrevoked
  once := honce

/-- A step that writes no message and recalls none. -/
theorem RecallInv.quiet (h : RecallInv ts s) (hi : ts[i]? = some t) (ht : t'.call = t.call)
    (hcalls : s'.calls = s.calls) (hsame : ∀ j, j ≠ i → SameFor s s' j) (hdid : t'.DidIn s' i)
    (hmessages : s'.messages = s.messages) (hrevoked : s'.revoked = s.revoked) :
    RecallInv (ts.set i t') s' := by
  refine h.move hi ht hcalls hsame hdid ?_ (by rw [hrevoked]; exact h.once)
  rw [hrevoked, hmessages]
  exact h.revoked

/-- The commit of a recall: the row was NORMAL, so nobody has recalled it. -/
theorem recallInv_update {m : MessageRow} {c : MsgChoice} {ok : Bool} (h : RecallInv ts s)
    (hi : ts[i]? = some t) (ha : msgContract.allowed t (.updateRecalled m))
    (hG : stillNormal.onOp i (.updateRecalled m) c s)
    (hx : s.exec i (.updateRecalled m) c = some (ok, s')) :
    RecallInv (ts.set i (msgContract.next t (.updateRecalled m) ok)) s' := by
  obtain ⟨uid, req, m₀, rfl, rfl⟩ := ha
  obtain ⟨hmid', hempty⟩ := (h.did i _ hi).of_holds
  have hmid : m₀.recalled.message_id = req.mid := hmid'
  have hlost : RecallInv (ts.set i ⟨.recalls uid req, .decided false⟩) s := by
    refine h.quiet hi rfl rfl (fun j _ ↦ .refl s j) ?_ rfl rfl
    rw [MsgThread.DidIn, hempty.2.1, hempty.2.2]
    exact .lost
  simp only [MsgState.exec] at hx
  cases hfind : s.messages.find m₀.recalled.message_id with
  | none =>
    rw [hfind] at hx
    obtain ⟨rfl, rfl⟩ := Prod.mk.inj (Option.some.inj hx)
    exact hlost
  | some r =>
    rw [hfind] at hx
    obtain ⟨rfl, rfl⟩ := Prod.mk.inj (Option.some.inj hx)
    by_cases hacts : c.acts = true
    swap
    · rw [if_neg hacts, MsgChoice.fault_of_not_acts hacts]
      exact hlost
    rw [if_pos hacts]
    have hnormal : r.status = .NORMAL := by
      have hall := hG hacts
      rw [hfind] at hall
      exact of_decide_eq_true hall
    have hnew : m₀.recalled.message_id ∉ s.revoked.map (·.2) := by
      intro hmem
      obtain ⟨x, hx, hxm⟩ := List.mem_map.1 hmem
      obtain ⟨r', hr', hst⟩ := h.revoked x hx
      rw [hxm, hfind] at hr'
      obtain rfl := Option.some.inj hr'
      rw [hnormal] at hst
      cases hst
    refine h.move hi rfl rfl (fun j hji ↦ ⟨Iff.rfl, Pool.entries_cons_ne hji, rfl, rfl⟩) ?_ ?_ ?_
    · rw [MsgThread.DidIn]
      simp only [Pool.entries_cons_self, hempty, hmid]
      cases c.fault with
      | false => exact .won
      | true => exact .lost
    · intro x hx
      rcases List.mem_cons.1 hx with rfl | hx
      · exact ⟨m₀.recalled, Table.find_write_self hfind, rfl⟩
      · obtain ⟨r', hr', hst⟩ := h.revoked x hx
        refine ⟨r', ?_, hst⟩
        rw [Table.find_write_ne _ fun heq ↦ hnew ?_]
        · exact hr'
        · rw [heq]
          exact List.mem_map_of_mem hx
    · exact List.nodup_cons.2 ⟨hnew, h.once⟩

/-- A step of a call that is no recall. -/
theorem RecallInv.other {c : MsgCall} {phase phase' : MsgPhase} (h : RecallInv ts s)
    (hi : ts[i]? = some ⟨c, phase⟩) (hc : ∀ uid req, c ≠ .recalls uid req)
    (hcalls : s'.calls = s.calls) (hsame : ∀ j, j ≠ i → SameFor s s' j)
    (hn : ∀ n ∈ Pool.entries i s'.published, n ∉ Pool.entries i s.published →
      n.recalledMid = none)
    (hmessages : s'.messages = s.messages) (hrevoked : s'.revoked = s.revoked) :
    RecallInv (ts.set i ⟨c, phase'⟩) s' := by
  obtain ⟨hr, hold⟩ := (h.did i _ hi).of_other hc
  refine h.quiet hi rfl hcalls hsame ?_ hmessages hrevoked
  rw [MsgThread.DidIn, hrevoked, hr]
  refine .other hc fun n hmem ↦ ?_
  by_cases hmem' : n ∈ Pool.entries i s.published
  · exact hold n hmem'
  · exact hn n hmem hmem'

/-- A step that touches the pins. -/
theorem RecallInv.beside {c : MsgCall} {phase phase' : MsgPhase} (h : RecallInv ts s)
    (hi : ts[i]? = some ⟨c, phase⟩) (hc : ∀ uid req, c ≠ .recalls uid req)
    (hs' : s' = { s with pins := s'.pins, repins := s'.repins, standing := s'.standing }) :
    RecallInv (ts.set i ⟨c, phase'⟩) s' := by
  rw [hs']
  exact h.other hi hc rfl (fun j _ ↦ ⟨Iff.rfl, rfl, rfl, rfl⟩) (fun n hn hn' ↦ absurd hn hn')
    rfl rfl

/-- `respond`: how the call has ended. -/
theorem recallInv_respond {rsp : Except ServiceError Unit} (h : RecallInv ts s)
    (hi : ts[i]? = some t) (ha : t.Answers rsp) :
    RecallInv (ts.set i { t with phase := .closed rsp })
      { s with answers := (i, rsp) :: s.answers } := by
  have hsame : ∀ j, j ≠ i → SameFor s { s with answers := (i, rsp) :: s.answers } j :=
    fun j hji ↦ ⟨Iff.rfl, rfl, rfl, Pool.entries_cons_ne hji⟩
  obtain ⟨c, phase⟩ := t
  cases c with
  | pins uid req | unpins uid req =>
    exact h.other hi (fun _ _ ↦ MsgCall.noConfusion) rfl hsame
      (fun n hn hn' ↦ absurd hn hn') rfl rfl
  | recalls uid req =>
    have hdid := h.did i _ hi
    refine h.quiet hi rfl rfl hsame ?_ rfl rfl
    rw [MsgThread.DidIn, Pool.entries_cons_self]
    cases rsp with
    | ok _ =>
      obtain rfl : phase = .announced := ha
      obtain ⟨hr, hn, hanswers⟩ := hdid.of_announced
      rw [hr, hn, hanswers]
      exact .succeeded
    | error e =>
      cases phase with
      | idle =>
        obtain ⟨htried, hr, hn, hanswers⟩ := hdid.of_idle
        rw [hn, hanswers]
        exact .failed (ha.imp_right fun he ↦ ⟨htried, he⟩)
      | decided ok =>
        obtain ⟨-, hn, hanswers⟩ := hdid.of_decided
        rw [hn, hanswers]
        exact .failed (.inl ha.2)
      | holds | counted | done | announced | closed => exact absurd ha id

/-- `publish`: a recall that has been committed is announced. -/
theorem recallInv_publish {n : PushPayload} (h : RecallInv ts s) (hi : ts[i]? = some t)
    (ha : msgContract.allowed t (.publish n)) :
    RecallInv (ts.set i { t with phase := .announced })
      { s with published := (i, n) :: s.published } := by
  have hsame : ∀ j, j ≠ i → SameFor s { s with published := (i, n) :: s.published } j :=
    fun j hji ↦ ⟨Iff.rfl, rfl, Pool.entries_cons_ne hji, rfl⟩
  obtain ⟨c, phase⟩ := t
  have hpin {b : Bool} {uid : String} {req : MessageRef} (hc : ∀ uid req, c ≠ .recalls uid req)
      (hn : n = .pin req.conversation_id req.message_id uid b) :
      RecallInv (ts.set i ⟨c, .announced⟩) { s with published := (i, n) :: s.published } := by
    refine h.other hi hc rfl hsame (fun n' hn' hold ↦ ?_) rfl rfl
    rw [Pool.entries_cons_self] at hn'
    rcases List.mem_cons.1 hn' with rfl | hn'
    · rw [hn]
      rfl
    · exact absurd hn' hold
  cases c with
  | pins uid req | unpins uid req =>
    cases phase with
    | done ok => exact hpin (fun _ _ ↦ MsgCall.noConfusion) ha.2
    | idle | holds | decided | counted | announced | closed => exact absurd ha id
  | recalls uid req =>
    cases phase with
    | decided ok =>
      obtain ⟨rfl, rfl⟩ := ha
      obtain ⟨hr, hn, hanswers⟩ := (h.did i _ hi).of_decided
      refine h.quiet hi rfl rfl hsame ?_ rfl rfl
      rw [MsgThread.DidIn, Pool.entries_cons_self, hr rfl, hn, hanswers]
      exact .announced
    | idle | holds | counted | done | announced | closed => exact absurd ha id

/-- **Every call of a thread** keeps what the tables and the records agree on. -/
theorem recallInv_call {o : MsgOp} {c : MsgChoice} {r : o.Res} (h : RecallInv ts s)
    (hi : ts[i]? = some t) (ha : msgContract.allowed t o) (hG : stillNormal.onOp i o c s)
    (hx : s.exec i o c = some (r, s')) :
    RecallInv (ts.set i (msgContract.next t o r)) s' := by
  have hstay : RecallInv (ts.set i t) s :=
    h.quiet hi rfl rfl (fun j _ ↦ .refl s j) (h.did i t hi) rfl rfl
  cases o with
  | now_ms | clock | selectById | selectSelf =>
    obtain ⟨-, rfl⟩ := Prod.mk.inj (Option.some.inj hx)
    exact hstay
  | selectNormal mid =>
    obtain ⟨uid, req, rfl, rfl⟩ := ha
    obtain ⟨-, rfl⟩ := Prod.mk.inj (Option.some.inj hx)
    obtain ⟨-, hrev, hn, hanswers⟩ := (h.did i _ hi).of_idle
    have hsame : ∀ j, j ≠ i → SameFor s { s with tried := i :: s.tried } j :=
      fun j hji ↦ ⟨by simp [hji], rfl, rfl, rfl⟩
    cases r with
    | none =>
      refine h.quiet hi rfl rfl hsame ?_ rfl rfl
      rw [MsgThread.DidIn, hrev, hn, hanswers]
      exact .lost
    | some m =>
      have hmid : m.message_id = req.mid := msgContract_admits (t := ⟨.recalls uid req, .idle⟩) hx
      refine h.quiet hi rfl rfl hsame ?_ rfl rfl
      rw [MsgThread.DidIn, hrev, hn, hanswers]
      exact .holds hmid
  | updateRecalled m => exact recallInv_update h hi ha hG hx
  | countPins cid =>
    obtain ⟨uid, req, rfl, rfl⟩ := ha
    obtain ⟨-, rfl⟩ := Prod.mk.inj (Option.some.inj hx)
    exact h.beside hi (fun _ _ ↦ MsgCall.noConfusion) rfl
  | insertPin p =>
    obtain ⟨uid, req, n, rfl, -, -⟩ := ha
    refine h.beside hi (fun _ _ ↦ MsgCall.noConfusion) ?_
    simp only [MsgState.exec] at hx
    split at hx
    · obtain ⟨-, rfl⟩ := Prod.mk.inj (Option.some.inj hx)
      rfl
    · obtain ⟨-, rfl⟩ := Prod.mk.inj (Option.some.inj hx)
      split <;> rfl
  | removePin cid mid =>
    obtain ⟨uid, req, rfl⟩ := ha
    obtain ⟨-, rfl⟩ := Prod.mk.inj (Option.some.inj hx)
    exact h.beside hi (fun _ _ ↦ MsgCall.noConfusion) (by split <;> rfl)
  | publish n =>
    obtain ⟨-, rfl⟩ := Prod.mk.inj (Option.some.inj hx)
    exact recallInv_publish h hi ha
  | respond rsp =>
    obtain ⟨-, rfl⟩ := Prod.mk.inj (Option.some.inj hx)
    exact recallInv_respond h hi ha

end Steps

/-! ### Runs -/

theorem recallInv_event {ts : List MsgThread} {p p' : MsgPool} {e : MsgEv}
    (h : RecallInv ts p.shared) (hm : p.Meets msgContract (fun _ ↦ True) ts)
    (hx : MsgState.env e p = some p') :
    ∃ ts', RecallInv ts' p'.shared ∧ p'.Meets msgContract (fun _ ↦ True) ts' := by
  cases e with
  | crash i =>
    obtain rfl := Option.some.inj hx
    exact ⟨ts, h, hm.stop (fun _ ↦ trivial) i _⟩
  | store m =>
    obtain ⟨messages, hins, rfl⟩ := Option.map_eq_some_iff.1 hx
    refine ⟨ts, ⟨h.calls, h.did, h.fresh, fun x hx ↦ ?_, h.once⟩, hm⟩
    obtain ⟨r, hr, hst⟩ := h.revoked x hx
    have hne : m.message_id ≠ x.2 := by
      intro heq
      have hnone := (Table.rows_of_insert hins).1
      rw [heq, hr] at hnone
      cases hnone
    refine ⟨r, ?_, hst⟩
    rw [Table.find_insert hins, if_neg hne]
    exact hr
  | arrive c =>
    obtain rfl := Option.some.inj hx
    refine ⟨ts ++ [⟨c, .idle⟩], ⟨?_, fun i t hi ↦ ?_, fun i hi ↦ ?_, h.revoked, h.once⟩,
      hm.spawn c.text_meets _⟩
    · rw [h.calls, List.map_append]
      rfl
    · rcases Pool.getElem?_append_cases hi with ⟨rfl, rfl⟩ | ⟨-, hi⟩
      · obtain ⟨ht, hr, hn, hanswers⟩ := h.fresh ts.length (List.getElem?_eq_none (Nat.le_refl _))
        show MsgThread.Did _ _ _ _ _
        rw [hr, hn, hanswers]
        cases c with
        | recalls uid req => exact .idle ht
        | pins uid req | unpins uid req =>
          exact .other (fun _ _ ↦ MsgCall.noConfusion) fun n hn ↦ absurd hn List.not_mem_nil
      · exact h.did i t hi
    · have hlen := List.getElem?_eq_none_iff.1 hi
      rw [List.length_append] at hlen
      exact h.fresh i (List.getElem?_eq_none (by omega))

theorem recallInv_fresh {s : MsgState} (hs : s.Fresh) : RecallInv [] s where
  calls := hs.calls
  did _ _ h := absurd h (by simp)
  fresh i _ := by
    rw [hs.tried, hs.revoked, hs.published, hs.answers]
    exact ⟨List.not_mem_nil, rfl, rfl, rfl⟩
  revoked x hx := by
    rw [hs.revoked] at hx
    exact absurd hx List.not_mem_nil
  once := by
    rw [hs.revoked]
    exact List.nodup_nil

section RecalledOnce

variable {ts : List MsgThread} {s : MsgState} {i j : ℕ} {mid : UInt64}

/-- Two threads that have recalled a message are the same. -/
theorem RecallInv.eq_of_revoked (h : RecallInv ts s) (hi : (i, mid) ∈ s.revoked)
    (hj : (j, mid) ∈ s.revoked) : i = j :=
  (Prod.mk.inj (List.inj_on_of_nodup_map h.once hi hj rfl)).1

/-- The thread of a recall. -/
theorem RecallInv.thread (h : RecallInv ts s) (hi : s.Recalls mid i) :
    ∃ uid req phase, ts[i]? = some ⟨.recalls uid req, phase⟩ ∧ req.mid = mid := by
  obtain ⟨uid, req, hcall, hmid⟩ := hi
  rw [h.calls, List.getElem?_map] at hcall
  obtain ⟨⟨c, phase⟩, ht, rfl⟩ := Option.map_eq_some_iff.1 hcall
  exact ⟨uid, req, phase, ht, hmid⟩

/-- Who has published the notice has recalled the message, and published nothing else. -/
theorem RecallInv.of_published (h : RecallInv ts s) {x : ℕ × PushPayload} (hx : x ∈ s.published)
    (hmid : x.2.recalledMid = some mid) :
    (x.1, mid) ∈ s.revoked ∧ (Pool.entries x.1 s.published).length ≤ 1 := by
  have hmem : x.2 ∈ Pool.entries x.1 s.published := Pool.mem_entries.2 hx
  cases hi : ts[x.1]? with
  | none =>
    rw [(h.fresh _ hi).2.2.1] at hmem
    exact absurd hmem List.not_mem_nil
  | some t =>
    obtain ⟨hrevoked, hlen⟩ := (h.did _ t hi).of_notice hmem hmid
    exact ⟨Pool.mem_entries.1 hrevoked, hlen⟩

/-- A call that has answered with success has recalled its message and published that. -/
theorem RecallInv.of_succeeded (h : RecallInv ts s) (hi : s.Recalls mid i)
    (hok : (i, .ok ()) ∈ s.answers) :
    (i, mid) ∈ s.revoked ∧ ∃ x ∈ s.published, x.2.recalledMid = some mid := by
  obtain ⟨uid, req, phase, ht, rfl⟩ := h.thread hi
  obtain ⟨hrevoked, hn⟩ := (h.did i _ ht).of_ok (Pool.mem_entries.2 hok)
  exact ⟨Pool.mem_entries.1 hrevoked, _, Pool.mem_entries.1 hn, rfl⟩

theorem RecallInv.notices_le_one (h : RecallInv ts s) (mid : UInt64) : s.notices mid ≤ 1 := by
  refine Pool.countP_le_one (fun x hx y hy hPx hPy ↦ ?_) fun x hx hPx ↦ ?_
  · exact h.eq_of_revoked (h.of_published hx (of_decide_eq_true hPx)).1
      (h.of_published hy (of_decide_eq_true hPy)).1
  · exact (h.of_published hx (of_decide_eq_true hPx)).2

theorem RecallInv.recalledOnce (h : RecallInv ts s) (mid : UInt64) : s.RecalledOnce mid where
  one_succeeds i j hi hj hoki hokj :=
    h.eq_of_revoked (h.of_succeeded hi hoki).1 (h.of_succeeded hj hokj).1
  others_fail i e hi he := by
    obtain ⟨uid, req, phase, ht, -⟩ := h.thread hi
    exact (h.did i _ ht).of_error (Pool.mem_entries.2 he)
  notices_le_one := h.notices_le_one mid
  notices_eq_one i hi hok := by
    obtain ⟨-, x, hx, hmid⟩ := h.of_succeeded hi hok
    have hpos : 0 < s.notices mid := List.countP_pos_iff.2 ⟨x, hx, decide_eq_true hmid⟩
    have hle := h.notices_le_one mid
    omega

end RecalledOnce

/-- **A message is recalled once** in every run in which the row that a recall is written to is
still NORMAL. -/
theorem message_recalled_once (s₀ : MsgState) (hs : s₀.Fresh) (p : MsgPool)
    (hr : messageService.Reach stillNormal ⟨[], s₀⟩ p) (mid : UInt64) :
    p.shared.RecalledOnce mid := by
  obtain ⟨ts, h, -⟩ : ∃ ts, RecallInv ts p.shared ∧ p.Meets msgContract (fun _ ↦ True) ts := by
    refine Machine.invariant hr ⟨[], recallInv_fresh hs, .nil⟩ ?_ ?_
    · intro ts s i t o c r s' h hi ha hG hx
      exact ⟨msgContract_admits hx, recallInv_call h hi ha hG hx⟩
    · intro ts p e p' h hm _ hx
      exact recallInv_event h hm hx
  exact h.recalledOnce mid

instance (i : ℕ) (o : MsgOp) (c : MsgChoice) (s : MsgState) :
    Decidable (stillNormal.onOp i o c s) :=
  match o with
  | .updateRecalled m => inferInstanceAs (Decidable (c.acts = true →
      (s.messages.find m.message_id).all (·.status = .NORMAL) = true))
  | .now_ms => .isTrue trivial
  | .clock => .isTrue trivial
  | .selectById _ => .isTrue trivial
  | .selectNormal _ => .isTrue trivial
  | .selectSelf _ _ => .isTrue trivial
  | .countPins _ => .isTrue trivial
  | .insertPin _ => .isTrue trivial
  | .removePin _ _ => .isTrue trivial
  | .publish _ => .isTrue trivial
  | .respond _ => .isTrue trivial

instance (e : MsgEv) (p : MsgPool) : Decidable (stillNormal.onEv e p) := .isTrue trivial

/-- Alice has written to the team. -/
def aliceWrote : MsgState where
  messages := ⟨[{ message_id := 7, seq_id := 1, session_id := "team", user_id := "alice",
                  message_type := 0, create_time := 1000, content := "hi", client_msg_id := none,
                  file_id := "", file_name := "", file_size := 0, status := .NORMAL }],
    List.pairwise_singleton _ _⟩

theorem aliceWrote_fresh : aliceWrote.Fresh := ⟨rfl, rfl, rfl, rfl, rfl, rfl, rfl⟩

/-- Alice recalls her message on two devices. -/
def aliceRecalls : List (Machine.Label MsgChoice MsgEv) :=
  [.event (.arrive (.recalls "alice" ⟨"team", 7⟩)), .event (.arrive (.recalls "alice" ⟨"team", 7⟩))]

/-- A call of alice up to the read of `update_status_to_recalled`. -/
def readsNormal (i : ℕ) : List (Machine.Label MsgChoice MsgEv) :=
  [.call i {}, .call i { self := some { conversation_id := "team", user_id := "alice" } },
    .call i { now_ms := 2000 }, .call i {}]

/-- One call of alice after the other: the second one is told that the message has been recalled. -/
theorem message_recalled_once_by_alice :
    aliceWrote.Fresh ∧ ∃ p, messageService.Reach stillNormal ⟨[], aliceWrote⟩ p ∧
      p.shared.answers = [(1, .error ⟨error.kMessageAlreadyRecalled, "already recalled"⟩),
        (0, .ok ())] ∧ p.shared.RecalledOnce 7 := by
  obtain ⟨p, hp, hanswers⟩ := Machine.exists_of_run messageService stillNormal ⟨[], aliceWrote⟩
    (aliceRecalls ++ readsNormal 0 ++ List.replicate 3 (.call 0 {}) ++
      List.replicate 2 (.call 1 {}))
    (fun p ↦ p.shared.answers = [(1, .error ⟨error.kMessageAlreadyRecalled, "already recalled"⟩),
        (0, .ok ())]) (by decide +kernel)
  exact ⟨aliceWrote_fresh, p, hp, hanswers, message_recalled_once _ aliceWrote_fresh p hp 7⟩

/-- Both calls of alice read the row before either writes it: both succeed, and the members are told
twice. -/
theorem message_recalled_twice :
    ∃ p, messageService.Reach .any ⟨[], aliceWrote⟩ p ∧
      p.shared.answers = [(1, .ok ()), (0, .ok ())] ∧ p.shared.notices 7 = 2 ∧
      ¬p.shared.RecalledOnce 7 := by
  obtain ⟨p, hp, hanswers, hnotices⟩ := Machine.exists_of_run messageService .any
    ⟨[], aliceWrote⟩ (aliceRecalls ++ readsNormal 0 ++ readsNormal 1 ++
      List.replicate 3 (.call 0 {}) ++ List.replicate 3 (.call 1 {}))
    (fun p ↦ p.shared.answers = [(1, .ok ()), (0, .ok ())] ∧ p.shared.notices 7 = 2)
    (by decide +kernel)
  refine ⟨p, hp, hanswers, hnotices, fun h ↦ ?_⟩
  have hle := h.notices_le_one
  omega

end ChatNow
