import ChatNow.Message.Contract

/-!
# Ten pins

`MsgState.TenPins` says that no conversation has more than `kPinLimit` pins, so that
`ListPinnedMessages` shows all of them, and that a message that is pinned can be pinned again, with
no effect.

`PinMessage` counts the pins in one transaction and inserts in another, so the calls that have
counted nine before any of them inserts all insert; and it counts before it looks whether the
message is pinned, so at the limit a pinned message is refused (`eleven_pins`). `ten_pins` is about
the runs in which the count of a call that inserts a new row still stands: it has not failed, and no
other new row of the conversation has been committed since. Then the check of the call itself keeps
the limit. A call whose message is pinned has to count fewer than ten.
-/

namespace ChatNow

open Prog

/-- Ten pins at most, all of them listed; and a pinned message is pinned again without effect. -/
structure MsgState.TenPins (s : MsgState) : Prop where
  le_limit : ∀ cid, s.count_by_conversation cid ≤ kPinLimit
  listed : ∀ p ∈ s.pins.rows,
    p.message_id ∈ MessagePinTable.list_by_conversation s.pins p.session_id kPinLimit
  /-- A call that has found its message pinned fails only when its transaction does. -/
  repin_succeeds : ∀ i ∈ s.repins, ∀ e, (i, .error e) ∈ s.answers → e = pin_insert_failed
  repin_adds_none : ∀ i p c, (s.pins.find p.key).isSome = true →
    s.exec i (.insertPin p) c = some (!c.fault, s)

/-- A row that is inserted is there already, or nothing has come between the count of the call and
its insert; and a call that counts the pins while its message is among them finds fewer than ten,
unless the count fails. -/
def countStands : Machine.Guard MsgOp MsgOp.Res MsgState MsgChoice MsgEv where
  onOp i o c s :=
    match o with
    | .insertPin p => c.acts = true → (s.pins.find p.key).isSome = true ∨
        (i, p.session_id) ∈ s.standing
    | .countPins cid => s.repinned i = true → c.fault = true ∨
        s.count_by_conversation cid < kPinLimit
    | _ => True
  onEv _ _ := True

/-- How far a call may have come that has found its message pinned. -/
def MsgPhase.Repins : MsgPhase → Prop
  | counted n => n < kPinLimit
  | done _ => True
  | announced => True
  | closed (.ok _) => True
  | closed (.error e) => e = pin_insert_failed
  | _ => False

/-- How far a call may have come whose count stands where there are `k` pins. -/
def MsgPhase.Counted (k : ℕ) : MsgPhase → Prop
  | idle => False
  | counted n => k ≤ n
  | _ => True

theorem MsgPhase.Counted.mono {k l : ℕ} {phase : MsgPhase} (h : phase.Counted l) (hle : k ≤ l) :
    phase.Counted k := by
  cases phase with
  | counted n => exact hle.trans h
  | idle => exact h
  | holds | decided | done | announced | closed => trivial

/-- The pins and the records of the calls agree. -/
structure PinInv (ts : List MsgThread) (s : MsgState) : Prop where
  calls : s.calls = ts.map (·.call)
  le_limit : ∀ cid, s.count_by_conversation cid ≤ kPinLimit
  repins : ∀ i ∈ s.repins, ∃ uid req phase, ts[i]? = some ⟨.pins uid req, phase⟩ ∧ phase.Repins
  answers : ∀ i e, (i, .error e) ∈ s.answers → ∃ t, ts[i]? = some t ∧ t.phase = .closed (.error e)
  /-- Where a count stands, there are no more pins than have been counted. -/
  standing : ∀ i cid, (i, cid) ∈ s.standing → ∃ t, ts[i]? = some t ∧
    t.phase.Counted (s.count_by_conversation cid)

section Steps

variable {ts : List MsgThread} {s s' : MsgState} {i : ℕ} {t : MsgThread} {phase : MsgPhase}

/-- The step of a thread. -/
theorem PinInv.move (h : PinInv ts s) (hi : ts[i]? = some t) (hcalls : s'.calls = s.calls)
    (hle : ∀ cid, s'.count_by_conversation cid ≤ kPinLimit)
    (hrepins : ∀ j ∈ s'.repins, j ≠ i → j ∈ s.repins)
    (hphase : i ∈ s'.repins → (∃ uid req, t.call = .pins uid req) ∧ phase.Repins)
    (hanswers : ∀ j e, (j, .error e) ∈ s'.answers → j ≠ i → (j, .error e) ∈ s.answers)
    (hclosed : ∀ e, (i, .error e) ∈ s'.answers → phase = .closed (.error e))
    (hstanding : ∀ j cid, (j, cid) ∈ s'.standing → j ≠ i →
      (j, cid) ∈ s.standing ∧ s'.count_by_conversation cid ≤ s.count_by_conversation cid)
    (hcounted : ∀ cid, (i, cid) ∈ s'.standing → phase.Counted (s'.count_by_conversation cid)) :
    PinInv (ts.set i { t with phase }) s' where
  calls := by
    rw [hcalls, h.calls]
    exact (Pool.map_set_eq (u := { t with phase }) (f := MsgThread.call) hi rfl).symm
  le_limit := hle
  repins j hj := by
    rcases eq_or_ne j i with rfl | hji
    · obtain ⟨⟨uid, req, hcall⟩, hp⟩ := hphase hj
      refine ⟨uid, req, phase, ?_, hp⟩
      rw [Pool.getElem?_set_self hi, hcall]
    · rw [List.getElem?_set_ne hji.symm]
      exact h.repins j (hrepins j hj hji)
  answers j e hj := by
    rcases eq_or_ne j i with rfl | hji
    · exact ⟨_, Pool.getElem?_set_self hi, hclosed e hj⟩
    · rw [List.getElem?_set_ne hji.symm]
      exact h.answers j e (hanswers j e hj hji)
  standing j cid hj := by
    rcases eq_or_ne j i with rfl | hji
    · exact ⟨_, Pool.getElem?_set_self hi, hcounted cid hj⟩
    · obtain ⟨hold, hle⟩ := hstanding j cid hj hji
      obtain ⟨t', ht', hn⟩ := h.standing j cid hold
      rw [List.getElem?_set_ne hji.symm]
      exact ⟨t', ht', hn.mono hle⟩

/-- What is known of a thread that has counted its message among the pins. -/
theorem PinInv.of_repins (h : PinInv ts s) (hi : ts[i]? = some t) (hmem : i ∈ s.repins) :
    (∃ uid req, t.call = .pins uid req) ∧ t.phase.Repins := by
  obtain ⟨uid, req, ph, hi', hp⟩ := h.repins i hmem
  obtain rfl := Option.some.inj (hi.symm.trans hi')
  exact ⟨⟨uid, req, rfl⟩, hp⟩

/-- A thread that has not responded has no answer. -/
theorem PinInv.not_answered (h : PinInv ts s) (hi : ts[i]? = some t)
    (hopen : ∀ rsp, t.phase ≠ .closed rsp) (e : ServiceError) : (i, .error e) ∉ s.answers := by
  intro hmem
  obtain ⟨t', hi', hclosed⟩ := h.answers i e hmem
  obtain rfl := Option.some.inj (hi.symm.trans hi')
  exact hopen _ hclosed

/-- A step before the response that leaves the records as they are. -/
theorem PinInv.step (h : PinInv ts s) (hi : ts[i]? = some t) (hopen : ∀ rsp, t.phase ≠ .closed rsp)
    (hphase : (∃ uid req, t.call = .pins uid req) → t.phase.Repins → phase.Repins)
    (hle : ∀ cid, s'.count_by_conversation cid ≤ kPinLimit) (hcalls : s'.calls = s.calls)
    (hrepins : s'.repins = s.repins) (hanswers : s'.answers = s.answers)
    (hstanding : ∀ j cid, (j, cid) ∈ s'.standing →
      (j, cid) ∈ s.standing ∧ s'.count_by_conversation cid ≤ s.count_by_conversation cid)
    (hcounted : ∀ k, phase.Counted k) :
    PinInv (ts.set i { t with phase }) s' := by
  refine h.move hi hcalls hle (fun j hj _ ↦ hrepins ▸ hj) (fun hj ↦ ?_)
    (fun j e hj _ ↦ hanswers ▸ hj) (fun e he ↦ ?_) (fun j cid hj _ ↦ hstanding j cid hj)
    fun _ _ ↦ hcounted _
  · obtain ⟨hcall, hp⟩ := h.of_repins hi (hrepins ▸ hj)
    exact ⟨hcall, hphase hcall hp⟩
  · exact absurd (hanswers ▸ he) (h.not_answered hi hopen e)

/-- The count: a call that goes on with its message pinned has counted fewer than ten. -/
theorem pinInv_count {cid : String} {c : MsgChoice} {n : ℕ} (h : PinInv ts s)
    (hi : ts[i]? = some t) (ha : msgContract.allowed t (.countPins cid))
    (hG : countStands.onOp i (.countPins cid) c s)
    (hx : s.exec i (.countPins cid) c = some (n, s')) :
    PinInv (ts.set i { t with phase := .counted n }) s' := by
  obtain ⟨uid, req, rfl, rfl⟩ := ha
  obtain ⟨rfl, rfl⟩ := Prod.mk.inj (Option.some.inj hx)
  have hopen : ∀ rsp, MsgPhase.idle ≠ .closed rsp := fun _ ↦ MsgPhase.noConfusion
  have hidle : i ∉ s.repins := fun hmem ↦ (h.of_repins hi hmem).2
  have hother : ∀ {j}, j ∈ (if s.repinned i then i :: s.repins else s.repins) → j ≠ i →
      j ∈ s.repins := by
    intro j hj hji
    split at hj
    · exact (List.mem_cons.1 hj).resolve_left hji
    · exact hj
  refine h.move hi rfl h.le_limit (fun j hj hji ↦ hother hj hji) (fun hmem ↦ ?_)
    (fun j e hj _ ↦ hj) (fun e he ↦ absurd he (h.not_answered hi hopen e))
    (fun j cid' hj hji ↦ ⟨?_, le_rfl⟩) fun cid' hmem ↦ ?_
  · have hrepinned : s.repinned i = true := by
      by_contra hnot
      exact hidle (by rwa [if_neg hnot] at hmem)
    refine ⟨⟨uid, req, rfl⟩, ?_⟩
    show ite _ _ _ < kPinLimit
    rcases hG hrepinned with hfault | hroom
    · rw [if_pos hfault]
      exact Nat.succ_pos 9
    · split
      · exact Nat.succ_pos 9
      · exact hroom
  · dsimp only at hj
    split at hj
    · exact hj
    · exact (List.mem_cons.1 hj).resolve_left fun heq ↦ hji (Prod.mk.inj heq).1
  · have hnot : (i, cid') ∉ s.standing := by
      intro hold
      obtain ⟨t', ht', hidle'⟩ := h.standing i cid' hold
      obtain rfl := Option.some.inj (hi.symm.trans ht')
      exact hidle'
    dsimp only at hmem
    split at hmem
    · exact absurd hmem hnot
    · next hfault =>
      obtain ⟨-, rfl⟩ := Prod.mk.inj ((List.mem_cons.1 hmem).resolve_right hnot)
      show s.count_by_conversation _ ≤ ite _ _ _
      rw [if_neg hfault]

/-- The insert: where the count of the call stands, a row that is new finds room. -/
theorem pinInv_insert {p : MessagePin} {c : MsgChoice} {ok : Bool} (h : PinInv ts s)
    (hi : ts[i]? = some t) (ha : msgContract.allowed t (.insertPin p))
    (hG : countStands.onOp i (.insertPin p) c s) (hx : s.exec i (.insertPin p) c = some (ok, s')) :
    PinInv (ts.set i { t with phase := .done ok }) s' := by
  obtain ⟨uid, req, n, rfl, hlt, -⟩ := ha
  have hopen : ∀ rsp, MsgPhase.counted n ≠ .closed rsp := fun _ ↦ MsgPhase.noConfusion
  have hstay : PinInv (ts.set i ⟨.pins uid req, .done ok⟩) s :=
    h.step hi hopen (fun _ _ ↦ trivial) h.le_limit rfl rfl rfl (fun _ _ hj ↦ ⟨hj, le_rfl⟩)
      fun _ ↦ trivial
  simp only [MsgState.exec] at hx
  split at hx
  · obtain ⟨rfl, rfl⟩ := Prod.mk.inj (Option.some.inj hx)
    exact hstay
  · next pins hins =>
    obtain ⟨rfl, rfl⟩ := Prod.mk.inj (Option.some.inj hx)
    split
    · next hacts =>
      have hcount : ∀ cid, pins.count (fun q ↦ decide (q.session_id = cid)) =
          s.count_by_conversation cid + if p.session_id = cid then 1 else 0 := by
        intro cid
        rw [Table.count_insert hins fun q ↦ decide (q.session_id = cid)]
        by_cases hcid : p.session_id = cid
        · rw [decide_eq_true hcid, if_pos rfl, if_pos hcid]
          rfl
        · rw [decide_eq_false hcid, if_neg Bool.false_ne_true, if_neg hcid]
          rfl
      refine h.step hi hopen (fun _ _ ↦ trivial) (fun cid ↦ ?_) rfl rfl rfl (fun j cid hj ↦ ?_)
        fun _ ↦ trivial
      · show pins.count _ ≤ kPinLimit
        rw [hcount]
        split
        · next hcid =>
          subst hcid
          -- the check of the call, with what it has counted
          have hroom : s.count_by_conversation p.session_id ≤ n := by
            rcases hG hacts with hthere | hstands
            · rw [(Table.rows_of_insert hins).1] at hthere
              cases hthere
            · obtain ⟨t', ht', hn⟩ := h.standing i p.session_id hstands
              obtain rfl := Option.some.inj (hi.symm.trans ht')
              exact hn
          exact Nat.lt_of_le_of_lt hroom hlt
        · exact h.le_limit cid
      · obtain ⟨hmem, hne⟩ := List.mem_filter.1 hj
        refine ⟨hmem, ?_⟩
        show pins.count _ ≤ _
        rw [hcount, if_neg fun heq ↦ of_decide_eq_true hne heq.symm]
        exact le_rfl
    · exact hstay

/-- The response of a call that has found its message pinned. -/
theorem pinInv_respond {rsp : Except ServiceError Unit} (h : PinInv ts s) (hi : ts[i]? = some t)
    (ha : t.Answers rsp) :
    PinInv (ts.set i { t with phase := .closed rsp })
      { s with answers := (i, rsp) :: s.answers } := by
  have hopen : ∀ rsp, t.phase ≠ .closed rsp := by
    intro rsp' hclosed
    cases rsp with
    | ok _ =>
      rw [show t.phase = .announced from ha] at hclosed
      cases hclosed
    | error e =>
      obtain ⟨c, phase⟩ := t
      obtain rfl : phase = .closed rsp' := hclosed
      cases c <;> exact ha
  refine h.move hi rfl h.le_limit (fun j hj _ ↦ hj) (fun hmem ↦ ?_) (fun j e hj hji ↦ ?_)
    (fun e he ↦ ?_) (fun _ _ hj _ ↦ ⟨hj, le_rfl⟩) fun _ _ ↦ trivial
  · obtain ⟨⟨uid, req, hcall⟩, hp⟩ := h.of_repins hi hmem
    refine ⟨⟨uid, req, hcall⟩, ?_⟩
    obtain ⟨c, phase⟩ := t
    obtain rfl : c = .pins uid req := hcall
    cases rsp with
    | ok _ => trivial
    | error e =>
      cases phase with
      | counted n => exact absurd ha.1 (Nat.not_le_of_lt hp)
      | done ok => exact ha.2
      | idle | holds | decided => exact absurd hp id
      | announced | closed => exact absurd ha id
  · rcases List.mem_cons.1 hj with heq | hj
    · exact absurd (Prod.mk.inj heq).1 hji
    · exact hj
  · rcases List.mem_cons.1 he with heq | he
    · rw [(Prod.mk.inj heq).2]
    · exact absurd he (h.not_answered hi hopen e)

/-- **Every call of a thread** keeps what the pins and the records agree on. -/
theorem pinInv_call {o : MsgOp} {c : MsgChoice} {r : o.Res} (h : PinInv ts s)
    (hi : ts[i]? = some t) (ha : msgContract.allowed t o) (hG : countStands.onOp i o c s)
    (hx : s.exec i o c = some (r, s')) : PinInv (ts.set i (msgContract.next t o r)) s' := by
  have hstay : PinInv (ts.set i t) s := by
    refine h.move hi rfl h.le_limit (fun j hj _ ↦ hj) (h.of_repins hi) (fun j e hj _ ↦ hj)
      (fun e he ↦ ?_) (fun _ _ hj _ ↦ ⟨hj, le_rfl⟩) fun cid hmem ↦ ?_
    · obtain ⟨t', hi', hclosed⟩ := h.answers i e he
      obtain rfl := Option.some.inj (hi.symm.trans hi')
      exact hclosed
    · obtain ⟨t', hi', hcounted⟩ := h.standing i cid hmem
      obtain rfl := Option.some.inj (hi.symm.trans hi')
      exact hcounted
  cases o with
  | now_ms | clock | selectById | selectSelf =>
    obtain ⟨-, rfl⟩ := Prod.mk.inj (Option.some.inj hx)
    exact hstay
  | selectNormal mid =>
    obtain ⟨uid, req, rfl, rfl⟩ := ha
    obtain ⟨-, rfl⟩ := Prod.mk.inj (Option.some.inj hx)
    cases r <;>
    exact h.step hi (fun _ ↦ MsgPhase.noConfusion) (fun _ hp ↦ absurd hp id) h.le_limit rfl rfl rfl
      (fun _ _ hj ↦ ⟨hj, le_rfl⟩) fun _ ↦ trivial
  | updateRecalled m =>
    obtain ⟨uid, req, m₀, rfl, rfl⟩ := ha
    obtain ⟨hpins, hcalls, hrepins, hanswers, hstanding⟩ : s'.pins = s.pins ∧ s'.calls = s.calls ∧
        s'.repins = s.repins ∧ s'.answers = s.answers ∧ s'.standing = s.standing := by
      simp only [MsgState.exec] at hx
      split at hx
      · obtain ⟨-, rfl⟩ := Prod.mk.inj (Option.some.inj hx)
        exact ⟨rfl, rfl, rfl, rfl, rfl⟩
      · obtain ⟨-, rfl⟩ := Prod.mk.inj (Option.some.inj hx)
        split <;> exact ⟨rfl, rfl, rfl, rfl, rfl⟩
    have hcount : ∀ cid, s'.count_by_conversation cid = s.count_by_conversation cid :=
      fun cid ↦ congrArg (Table.count · _) hpins
    exact h.step hi (fun _ ↦ MsgPhase.noConfusion) (fun _ hp ↦ absurd hp id)
      (fun cid ↦ (hcount cid).trans_le (h.le_limit cid)) hcalls hrepins hanswers
      (fun _ cid hj ↦ ⟨hstanding ▸ hj, (hcount cid).le⟩) fun _ ↦ trivial
  | countPins cid => exact pinInv_count h hi ha hG hx
  | insertPin p => exact pinInv_insert h hi ha hG hx
  | removePin cid mid =>
    obtain ⟨uid, req, rfl⟩ := ha
    obtain ⟨-, rfl⟩ := Prod.mk.inj (Option.some.inj hx)
    split
    · exact h.step hi (fun _ ↦ MsgPhase.noConfusion) (fun _ _ ↦ trivial)
        (fun cid' ↦ Nat.le_trans (Table.count_erase_le _ _) (h.le_limit cid')) rfl rfl rfl
        (fun _ _ hj ↦ ⟨hj, Table.count_erase_le _ _⟩) fun _ ↦ trivial
    · exact h.step hi (fun _ ↦ MsgPhase.noConfusion) (fun _ _ ↦ trivial) h.le_limit rfl rfl rfl
        (fun _ _ hj ↦ ⟨hj, le_rfl⟩) fun _ ↦ trivial
  | publish n =>
    obtain ⟨-, rfl⟩ := Prod.mk.inj (Option.some.inj hx)
    refine h.step hi (fun rsp hclosed ↦ ?_) (fun _ _ ↦ trivial) h.le_limit rfl rfl rfl
      (fun _ _ hj ↦ ⟨hj, le_rfl⟩) fun _ ↦ trivial
    obtain ⟨c, phase⟩ := t
    obtain rfl : phase = .closed rsp := hclosed
    cases c <;> exact ha
  | respond rsp =>
    obtain ⟨-, rfl⟩ := Prod.mk.inj (Option.some.inj hx)
    exact pinInv_respond h hi ha

end Steps

/-! ### Runs -/

theorem pinInv_event {ts : List MsgThread} {p p' : MsgPool} {e : MsgEv} (h : PinInv ts p.shared)
    (hm : p.Meets msgContract (fun _ ↦ True) ts) (hx : MsgState.env e p = some p') :
    ∃ ts', PinInv ts' p'.shared ∧ p'.Meets msgContract (fun _ ↦ True) ts' := by
  cases e with
  | crash i =>
    obtain rfl := Option.some.inj hx
    exact ⟨ts, h, hm.stop (fun _ ↦ trivial) i _⟩
  | store m =>
    obtain ⟨messages, -, rfl⟩ := Option.map_eq_some_iff.1 hx
    exact ⟨ts, ⟨h.calls, h.le_limit, h.repins, h.answers, h.standing⟩, hm⟩
  | arrive c =>
    obtain rfl := Option.some.inj hx
    refine ⟨ts ++ [⟨c, .idle⟩], ⟨?_, h.le_limit, fun i hi ↦ ?_, fun i e hi ↦ ?_,
      fun i cid hi ↦ ?_⟩, hm.spawn c.text_meets _⟩
    · rw [h.calls, List.map_append]
      rfl
    · obtain ⟨uid, req, phase, ht, hp⟩ := h.repins i hi
      exact ⟨uid, req, phase, Pool.getElem?_append_of_some ht, hp⟩
    · obtain ⟨t, ht, hclosed⟩ := h.answers i e hi
      exact ⟨t, Pool.getElem?_append_of_some ht, hclosed⟩
    · obtain ⟨t, ht, hcounted⟩ := h.standing i cid hi
      exact ⟨t, Pool.getElem?_append_of_some ht, hcounted⟩

/-- Where a conversation has no more pins than are listed, all are listed. -/
theorem mem_list_by_conversation {pins : Table MessagePin.key} {p : MessagePin} {limit : ℕ}
    (hle : pins.count (fun q ↦ decide (q.session_id = p.session_id)) ≤ limit)
    (hp : p ∈ pins.rows) :
    p.message_id ∈ MessagePinTable.list_by_conversation pins p.session_id limit := by
  refine List.mem_map.2 ⟨p, ?_, rfl⟩
  rw [List.take_of_length_le]
  · exact List.mem_mergeSort.2 (List.mem_filter.2 ⟨hp, decide_eq_true rfl⟩)
  · rw [List.length_mergeSort, ← List.countP_eq_length_filter]
    exact hle

theorem PinInv.tenPins {ts : List MsgThread} {s : MsgState} (h : PinInv ts s) : s.TenPins where
  le_limit := h.le_limit
  listed p hp := mem_list_by_conversation (h.le_limit p.session_id) hp
  repin_succeeds i hi e he := by
    obtain ⟨uid, req, phase, ht, hp⟩ := h.repins i hi
    obtain ⟨t, ht', hclosed⟩ := h.answers i e he
    obtain rfl := Option.some.inj (ht.symm.trans ht')
    rw [show phase = .closed (.error e) from hclosed] at hp
    exact hp
  repin_adds_none i p c hp := by
    have hnone : s.pins.insert p = none := by
      rw [Option.eq_none_iff_forall_ne_some]
      intro pins hins
      rw [(Table.rows_of_insert hins).1] at hp
      cases hp
    simp only [MsgState.exec]
    rw [hnone]

/-- **Ten pins at most**, and a pinned message is pinned again without effect, in every run in which
nothing new comes between the count of a call and its insert and a call whose message is pinned
counts fewer than ten. -/
theorem ten_pins (s₀ : MsgState) (hs : s₀.Fresh)
    (hle : ∀ cid, s₀.count_by_conversation cid ≤ kPinLimit) (p : MsgPool)
    (hr : messageService.Reach countStands ⟨[], s₀⟩ p) : p.shared.TenPins := by
  obtain ⟨ts, h, -⟩ : ∃ ts, PinInv ts p.shared ∧ p.Meets msgContract (fun _ ↦ True) ts := by
    have h₀ : PinInv [] s₀ := by
      refine ⟨hs.calls, hle, fun i hi ↦ ?_, fun i e hi ↦ ?_, fun i cid hi ↦ ?_⟩
      · rw [hs.repins] at hi
        exact absurd hi List.not_mem_nil
      · rw [hs.answers] at hi
        exact absurd hi List.not_mem_nil
      · rw [hs.standing] at hi
        exact absurd hi List.not_mem_nil
    refine Machine.invariant hr ⟨[], h₀, .nil⟩ ?_ ?_
    · intro ts s i t o c r s' h hi ha hG hx
      exact ⟨msgContract_admits hx, pinInv_call h hi ha hG hx⟩
    · intro ts p e p' h hm _ hx
      exact pinInv_event h hm hx
  exact h.tenPins

instance (i : ℕ) (o : MsgOp) (c : MsgChoice) (s : MsgState) :
    Decidable (countStands.onOp i o c s) :=
  match o with
  | .insertPin p => inferInstanceAs (Decidable (c.acts = true →
      (s.pins.find p.key).isSome = true ∨ (i, p.session_id) ∈ s.standing))
  | .countPins cid => inferInstanceAs (Decidable (s.repinned i = true → c.fault = true ∨
      s.count_by_conversation cid < kPinLimit))
  | .now_ms => .isTrue trivial
  | .clock => .isTrue trivial
  | .selectById _ => .isTrue trivial
  | .selectNormal _ => .isTrue trivial
  | .updateRecalled _ => .isTrue trivial
  | .selectSelf _ _ => .isTrue trivial
  | .removePin _ _ => .isTrue trivial
  | .publish _ => .isTrue trivial
  | .respond _ => .isTrue trivial

instance (e : MsgEv) (p : MsgPool) : Decidable (countStands.onEv e p) := .isTrue trivial

/-- The message of the team with the id. -/
def teamMessage (mid : UInt64) : MessageRow where
  message_id := mid
  seq_id := mid
  session_id := "team"
  user_id := "alice"
  message_type := 0
  create_time := 0
  content := "hi"
  client_msg_id := none
  file_id := ""
  file_name := ""
  file_size := 0
  status := .NORMAL

/-- The pin of the message of the team. -/
def teamPin (mid : UInt64) : MessagePin := ⟨"team", mid, "alice", 0⟩

/-- The team has two messages that are not pinned, and nine that are. -/
def ninePins : MsgState where
  messages := ⟨[teamMessage 1, teamMessage 2], by decide⟩
  pins := ⟨[11, 12, 13, 14, 15, 16, 17, 18, 19].map teamPin, by decide⟩

theorem ninePins_fresh : ninePins.Fresh := ⟨rfl, rfl, rfl, rfl, rfl, rfl, rfl⟩

theorem ninePins_le_limit (cid : String) : ninePins.count_by_conversation cid ≤ kPinLimit :=
  Nat.le_trans List.countP_le_length (by decide)

/-- Alice, who owns the team, pins the message, up to the count. -/
def alicePins (i : ℕ) : List (Machine.Label MsgChoice MsgEv) :=
  [.call i { self := some { conversation_id := "team", user_id := "alice", role := .OWNER } },
    .call i {}, .call i {}]

/-- The requests of alice to pin the messages. -/
def pinRequests (mids : List Int64) : List (Machine.Label MsgChoice MsgEv) :=
  mids.map fun mid ↦ .event (.arrive (.pins "alice" ⟨"team", mid⟩))

/-- The tenth message is pinned. -/
theorem ten_pins_of_nine :
    ninePins.Fresh ∧ (∀ cid, ninePins.count_by_conversation cid ≤ kPinLimit) ∧
      ∃ p, messageService.Reach countStands ⟨[], ninePins⟩ p ∧
        p.shared.count_by_conversation "team" = 10 ∧ p.shared.TenPins := by
  obtain ⟨p, hp, hten⟩ := Machine.exists_of_run messageService countStands ⟨[], ninePins⟩
    (pinRequests [1] ++ alicePins 0 ++ List.replicate 4 (.call 0 {}))
    (fun p ↦ p.shared.count_by_conversation "team" = 10) (by decide +kernel)
  exact ⟨ninePins_fresh, ninePins_le_limit, p, hp, hten,
    ten_pins _ ninePins_fresh ninePins_le_limit p hp⟩

/-- Two calls count nine before either inserts, and there are eleven pins. When there are ten, a
call that pins one of them again is refused. -/
theorem eleven_pins :
    (∃ p, messageService.Reach .any ⟨[], ninePins⟩ p ∧
      p.shared.count_by_conversation "team" = 11 ∧ ¬p.shared.TenPins) ∧
    ∃ p, messageService.Reach .any ⟨[], ninePins⟩ p ∧
      p.shared.count_by_conversation "team" = 10 ∧
      (p.shared.pins.find ("team", 1)).isSome = true ∧
      p.shared.answers = [(1, .error pin_limit_exceeded), (0, .ok ())] ∧ ¬p.shared.TenPins := by
  constructor
  · obtain ⟨p, hp, heleven⟩ := Machine.exists_of_run messageService .any ⟨[], ninePins⟩
      (pinRequests [1, 2] ++ alicePins 0 ++ alicePins 1 ++ List.replicate 4 (.call 0 {}) ++
        List.replicate 4 (.call 1 {}))
      (fun p ↦ p.shared.count_by_conversation "team" = 11) (by decide +kernel)
    refine ⟨p, hp, heleven, fun h ↦ ?_⟩
    have hle := h.le_limit "team"
    rw [heleven] at hle
    exact absurd hle (by decide)
  · obtain ⟨p, hp, hten, hpinned, hanswers, hrepins⟩ := Machine.exists_of_run messageService .any
      ⟨[], ninePins⟩ (pinRequests [1, 1] ++ alicePins 0 ++ List.replicate 4 (.call 0 {}) ++
        alicePins 1 ++ [.call 1 {}])
      (fun p ↦ p.shared.count_by_conversation "team" = 10 ∧
        (p.shared.pins.find ("team", 1)).isSome = true ∧
        p.shared.answers = [(1, .error pin_limit_exceeded), (0, .ok ())] ∧
        p.shared.repins = [1]) (by decide +kernel)
    refine ⟨p, hp, hten, hpinned, hanswers, fun h ↦ ?_⟩
    have heq := h.repin_succeeds 1 (by rw [hrepins]; exact List.mem_singleton_self 1)
      pin_limit_exceeded (by rw [hanswers]; exact List.mem_cons_self)
    exact absurd heq (by decide)

end ChatNow
