import ChatNow.Conversation.Count
import ChatNow.Conversation.Creation
import ChatNow.Conversation.Grants
import ChatNow.Lib.Tracked

/-!
# The limit of a group

`AddMembers` lets at most `kGroupMemberLimit` members into a group, by the `member_count` of the row
that it has read first. Nobody holds this row while the members are inserted one by one, so what two
calls have read is as good for either; and `CreateConversation` has no limit.

`group_limit` is about the runs in which no group is created beyond the limit and the check of
`AddMembers` is right when it is made (`roomChecked`): what the calls in flight may still make
active (`Pool.total GrantCall.due`) finds room beside the members that are active already. The two
together never exceed the limit. `group_of_501` is a group that has been created beyond it.
-/

namespace ChatNow

open Prog ConvOp

/-! ### The assumption -/

/-- No group is created beyond the limit. -/
def ConvReq.WithinLimit (auth_uid : String) : ConvReq → Prop
  | .create req => req.type = .GROUP →
      ((ConvReq.create req).newcomers auth_uid : ℤ) ≤ kGroupMemberLimit
  | _ => True

instance (auth_uid : String) (req : ConvReq) : Decidable (req.WithinLimit auth_uid) :=
  match req with
  | .create _ => inferInstanceAs (Decidable (_ → _ ≤ _))
  | .update _ | .dismiss _ | .quit _ | .add _ | .remove _ | .transfer _ | .changeRole _
  | .mute _ _ | .pin _ _ | .visible _ _ | .draft _ _ | .read _ _ | .ack _ _ => .isTrue trivial

/-- The active members of a conversation. -/
def ConvState.active (s : ConvState) (cid : String) : ℕ := s.members.count (·.activeOf cid)

/-- There is room for all that the call asks for, beside those that are active and those that the
calls in flight may still make active. -/
def GrantCall.HasRoom (t : GrantCall) (s : ConvState × List GrantCall) (cid : String) : Prop :=
  ((s.1.active cid + Pool.total (·.due cid) s.2 + t.req.newcomers t.auth_uid : ℕ) : ℤ) ≤
    kGroupMemberLimit

instance (t : GrantCall) (s : ConvState × List GrantCall) (cid : String) :
    Decidable (t.HasRoom s cid) :=
  inferInstanceAs (Decidable (_ ≤ _))

/-- When the check of `AddMembers` passes by the row that is read, it is right. -/
def ReadsRoom (i : ℕ) (ch : ConvChoice) (s : ConvState × List GrantCall) : ConvOp → Prop
  | selectConv cid => ch.fault = false → ∀ t, s.2[i]? = some t →
      ∀ c, s.1.convs.find cid = some c → t.req.Passes c → t.HasRoom s cid
  | _ => True

instance (i : ℕ) (ch : ConvChoice) (s : ConvState × List GrantCall) (o : ConvOp) :
    Decidable (ReadsRoom i ch s o) :=
  match o with
  | selectConv cid =>
    inferInstanceAs (Decidable (ch.fault = false → ∀ t, s.2[i]? = some t →
      ∀ c, s.1.convs.find cid = some c → t.req.Passes c → t.HasRoom s cid))
  | clock | uuid | insertConv _ | updateConv _ | selectMember _ _ | members _ | append _
  | appendAfterCreate _ | updateMember _ | writeRole _ | writeQuit _ | writeRejoin _
  | transferOwner _ _ _ | updateLastReadSeq _ _ _ | updateLastAckSeq _ _ _ | invalidate _
  | esWrite _ | respond _ => .isTrue trivial

/-- Members come and go, no group is created beyond the limit, and the check of `AddMembers` is
right when it is made. -/
def roomChecked :
    Machine.Guard ConvOp ConvOp.Res (ConvState × List GrantCall) ConvChoice ConvEv where
  onOp i o ch s := ReadsRoom i ch s o
  onEv e _ :=
    match e with
    | .arrive auth_uid req => req.OfMembers ∧ req.WithinLimit auth_uid
    | .crash _ => True

instance (i : ℕ) (o : ConvOp) (ch : ConvChoice) (s : ConvState × List GrantCall) :
    Decidable (roomChecked.onOp i o ch s) :=
  inferInstanceAs (Decidable (ReadsRoom i ch s o))

instance (e : ConvEv) (p : Pool ConvOp ConvOp.Res (ConvState × List GrantCall)) :
    Decidable (roomChecked.onEv e p) :=
  match e with
  | .arrive _ _ => inferInstanceAs (Decidable (_ ∧ _))
  | .crash _ => .isTrue trivial

/-- A thread that is gone makes nobody active. -/
def GrantCall.onEv : ConvEv → List GrantCall → List GrantCall
  | .arrive auth_uid req, ts => ts ++ [{ auth_uid, req }]
  | .crash i, ts => ts.modify i GrantCall.stop

/-- The conversation service with the grants of its calls. -/
def grantingService (cfg : ConversationServiceConfig) :
    Machine ConvOp ConvOp.Res (ConvState × List GrantCall) ConvChoice ConvEv :=
  (conversationService cfg).tracked grantContract GrantCall.onEv

/-! ### What a call does to the active members -/

section Steps

variable {ts : List GrantCall} {s s' : ConvState} {i : ℕ} {t : GrantCall} {o : ConvOp} {r : o.Res}
  {ch : ConvChoice} {cid : String}

/-- **No other member becomes active.** -/
theorem active_of_move (ha : t.allowed o) (hmove : ConvMove s ch o s') :
    s'.active cid ≤ s.active cid + o.activates cid := by
  cases hmove with
  | stay _ hmembers _ =>
    rw [ConvState.active, hmembers]
    exact Nat.le_add_right _ _
  | found _ => exact Nat.le_add_right _ _
  | restore _ _ => exact ha.elim
  | @people rows members hinsert =>
    show members.count _ ≤ _
    rw [Table.count_insertAll hinsert]
    refine Nat.add_le_add_left (List.countP_mono_left fun m _ hm ↦ ?_) _
    exact decide_eq_true (conversation_id_of_activeOf m hm)
  | @join m members _ hinsert _ =>
    show members.count _ ≤ _ + if m.conversation_id = cid then 1 else 0
    rw [Table.count_insert hinsert]
    refine Nat.add_le_add_left ?_ _
    by_cases hactive : m.activeOf cid = true
    · refine Nat.le_of_eq ?_
      rw [if_pos hactive, if_pos (conversation_id_of_activeOf m hactive)]
    · rw [if_neg hactive]
      exact Nat.zero_le _
  | @rewrite _ m _ _ ho _ hdelta =>
    cases o with
    | updateMember _ => exact ha.elim
    | writeRole _ => exact ha.elim
    | writeQuit _ => cases hdelta
    | writeRejoin _ => cases hdelta
    | _ => cases ho
  | @recount _ m m₀ _ _ ho hm hdelta _ =>
    have hcount := Table.count_write hm (·.activeOf cid)
    show (s.members.write m).count _ ≤ _
    cases o with
    | writeQuit m' =>
      obtain rfl := Option.some.inj ho
      have hgone : m'.activeOf cid = false := by
        rw [ConversationMember.activeOf, (ha : m'.is_quit = true), Bool.not_true, Bool.and_false]
      rw [hgone] at hcount
      show _ ≤ s.members.count _ + 0
      simp only [Bool.false_eq_true, if_false] at hcount
      omega
    | writeRejoin m' =>
      obtain rfl := Option.some.inj ho
      show _ ≤ s.members.count _ + if m'.conversation_id = cid then 1 else 0
      by_cases hcid : m'.conversation_id = cid
      · rw [if_pos hcid]
        have hle : (if m'.activeOf cid = true then 1 else 0) ≤ 1 := by split <;> decide
        omega
      · rw [activeOf_of_ne hcid] at hcount
        simp only [Bool.false_eq_true, if_false] at hcount
        omega
    | _ => exact absurd rfl hdelta
  | transfer _ _ _ _ _ _ => exact ha.elim
  | half _ _ _ => exact ha.elim
  | advance hfind hadv _ =>
    show (s.members.write _).count _ ≤ _
    rw [active_count_of_write (hadv.key ▸ hfind) hadv.is_quit]
    exact Nat.le_add_right _ _

/-! ### What a call does to the conversations -/

/-- A row of a conversation that is counted is one of the same type. -/
theorem find_of_counted {c₀ c : Conversation} {delta now : ℤ} {cid' : String}
    (hc₀ : s.convs.find cid' = some c₀) (hc : s.convs.find cid = some c) :
    ∃ c', (s.convs.write (c₀.counted delta now)).find cid = some c' ∧
      c'.conversation_type = c.conversation_type := by
  have hkey : c₀.conversation_id = cid' := Table.key_of_find hc₀
  rw [Table.find_write, hc]
  refine ⟨_, rfl, ?_⟩
  split
  · next heq =>
    obtain rfl : cid' = cid := hkey.symm.trans heq
    obtain rfl := Option.some.inj (hc₀.symm.trans hc)
    rfl
  · rfl

/-- The conversations stay, and their types with them. -/
theorem typed_of_move (ha : t.allowed o) (hmove : ConvMove s ch o s') {c : Conversation}
    (hc : s.convs.find cid = some c) :
    ∃ c', s'.convs.find cid = some c' ∧ c'.conversation_type = c.conversation_type := by
  cases hmove with
  | stay hconvs _ _ => exact ⟨c, by rw [hconvs]; exact hc, rfl⟩
  | @found c₁ convs hinsert =>
    have hne : c₁.conversation_id ≠ cid := by
      rintro rfl
      rw [(Table.rows_of_insert hinsert).1] at hc
      cases hc
    refine ⟨c, ?_, rfl⟩
    show convs.find cid = _
    rw [Table.find_insert hinsert, if_neg hne]
    exact hc
  | restore _ _ => exact ha.elim
  | people _ => exact ⟨c, hc, rfl⟩
  | join _ hc₀ => exact find_of_counted hc₀ hc
  | rewrite _ _ _ _ => exact ⟨c, hc, rfl⟩
  | recount _ _ _ _ hc₀ => exact find_of_counted hc₀ hc
  | transfer _ _ _ _ _ _ => exact ha.elim
  | half _ _ _ => exact ha.elim
  | advance _ _ _ => exact ⟨c, hc, rfl⟩

/-- The grant is for a conversation that there is. -/
theorem found_of_gets (ha : t.allowed o) (hx : s.exec i o ch = some (r, s'))
    (hgets : t.Gets cid o r) : ∃ c, s'.convs.find cid = some c := by
  cases o with
  | selectConv cid' =>
    cases r with
    | none => exact hgets.elim
    | some c =>
      obtain ⟨rfl, -⟩ := hgets
      obtain ⟨c', hc', -⟩ := typed_of_move ha (.of_exec hx) (ConvState.find_of_selectConv hx)
      exact ⟨c', hc'⟩
  | insertConv c =>
    cases r with
    | false => exact hgets.elim
    | true =>
      obtain rfl : c.conversation_id = cid := hgets
      exact ⟨c, (ConvState.find_of_insertConv hx).2⟩
  | _ => exact hgets.elim

theorem GrantCall.admits_of_exec (hx : s.exec i o ch = some (r, s')) : GrantCall.admits o r := by
  unfold GrantCall.admits
  split
  · exact Table.key_of_find (ConvState.find_of_selectMember hx)
  · exact Table.key_of_find (ConvState.find_of_selectConv hx)
  · trivial

/-! ### The invariant -/

/-- Nobody is a member, or is about to be, of a conversation that there is not, and in a group there
is room for those that are about to be. -/
structure LimitInv (ts : List GrantCall) (s : ConvState) : Prop where
  people : ∀ k m, s.members.find k = some m → ∃ c, s.convs.find k.1 = some c
  granted : ∀ (i : ℕ) t, ts[i]? = some t → ∀ cid n, t.grant = some (cid, n) →
    ∃ c, s.convs.find cid = some c
  within : ∀ (i : ℕ) t, ts[i]? = some t → t.req.WithinLimit t.auth_uid
  room : ∀ cid c, s.convs.find cid = some c → c.conversation_type = .GROUP →
    s.active cid + Pool.total (·.due cid) ts ≤ 500

namespace LimitInv

variable (h : LimitInv ts s)

include h

/-- Nobody is in a conversation that there is not, and nobody is about to be. -/
theorem zero_of_none (hnone : s.convs.find cid = none) :
    s.active cid = 0 ∧ Pool.total (·.due cid) ts = 0 := by
  constructor
  · refine (Table.count_eq_zero _).2 fun k m hm ↦ Bool.eq_false_iff.2 fun hactive ↦ ?_
    have hkey : m.key = k := Table.key_of_find hm
    obtain ⟨c, hc⟩ := h.people k m hm
    have hcid : k.1 = cid := by
      rw [← hkey]
      exact conversation_id_of_activeOf m hactive
    rw [hcid, hnone] at hc
    cases hc
  · refine Pool.total_eq_zero fun i t hi ↦ ?_
    rw [GrantCall.due]
    split
    · rfl
    · next cid' n hgrant =>
      refine if_neg fun heq ↦ ?_
      obtain ⟨c, hc⟩ := h.granted i t hi cid' n hgrant
      rw [heq, hnone] at hc
      cases hc

/-- Members are only of conversations that there are. -/
theorem people_of_move (hi : ts[i]? = some t) (ha : t.allowed o) (hmove : ConvMove s ch o s')
    {k : String × String} {m : ConversationMember} (hm : s'.members.find k = some m) :
    ∃ c, s'.convs.find k.1 = some c := by
  have hkeep {c : Conversation} (hc : s.convs.find k.1 = some c) :
      ∃ c, s'.convs.find k.1 = some c := by
    obtain ⟨c', hc', -⟩ := typed_of_move ha hmove hc
    exact ⟨c', hc'⟩
  have hold {m : ConversationMember} (hm : s.members.find k = some m) :
      ∃ c, s'.convs.find k.1 = some c := by
    obtain ⟨c, hc⟩ := h.people k m hm
    exact hkeep hc
  have hwrite {m' : ConversationMember} (hm : (s.members.write m').find k = some m) :
      ∃ c, s'.convs.find k.1 = some c := by
    obtain ⟨m₀, hm₀⟩ := Table.exists_of_find_write hm
    exact hold hm₀
  cases hmove with
  | stay _ hmembers _ =>
    rw [hmembers] at hm
    exact hold hm
  | found _ => exact hold hm
  | restore _ _ => exact ha.elim
  | @people rows members hinsert =>
    by_cases hnew : ∃ m' ∈ rows, m'.key = k
    · obtain ⟨m', hm', rfl⟩ := hnew
      obtain ⟨cid, hrows, n, hgrant, -⟩ := ha
      obtain ⟨c, hc⟩ := h.granted i t hi cid n hgrant
      have hcid : m'.key.1 = cid := hrows m' hm'
      exact hkeep (hcid ▸ hc)
    · have hsame := (Table.find_insertAll hinsert).2 k fun m' hm' heq ↦ hnew ⟨m', hm', heq⟩
      rw [hsame] at hm
      exact hold hm
  | @join m' members c hinsert hc =>
    rcases eq_or_ne m'.key k with rfl | hne
    · exact hkeep hc
    · rw [Table.find_insert hinsert, if_neg hne] at hm
      exact hold hm
  | rewrite _ _ _ _ => exact hwrite hm
  | recount _ _ _ _ _ => exact hwrite hm
  | transfer _ _ _ _ _ _ => exact ha.elim
  | half _ _ _ => exact ha.elim
  | advance _ _ _ => exact hwrite hm

/-- What the answer gives finds room. -/
theorem room_of_gets (hi : ts[i]? = some t) (ha : t.allowed o)
    (hG : roomChecked.onOp i o ch (s, ts)) (hx : s.exec i o ch = some (r, s')) {c : Conversation}
    (hc : s'.convs.find cid = some c) (hgroup : c.conversation_type = .GROUP)
    (hgets : t.Gets cid o r) :
    s.active cid + Pool.total (·.due cid) ts + t.req.newcomers t.auth_uid ≤ 500 := by
  cases o with
  | selectConv cid' =>
    cases r with
    | none => exact hgets.elim
    | some c₀ =>
      obtain ⟨rfl, hpasses⟩ := hgets
      have hfind := ConvState.find_of_selectConv hx
      have hfault : ch.fault = false := by
        cases hf : ch.fault with
        | false => rfl
        | true =>
          have hnone := (Prod.mk.inj (Option.some.inj hx)).1
          rw [if_pos hf] at hnone
          cases hnone
      exact Int.ofNat_le.1 (hG hfault t hi c₀ hfind hpasses)
  | insertConv c₀ =>
    cases r with
    | false => exact hgets.elim
    | true =>
      obtain rfl : c₀.conversation_id = cid := hgets
      obtain ⟨hnone, hfind⟩ := ConvState.find_of_insertConv hx
      obtain ⟨hactive, hdue⟩ := h.zero_of_none hnone
      obtain rfl := Option.some.inj (hfind.symm.trans hc)
      obtain ⟨req, cid, now, hreq, rfl⟩ := ha
      have hwithin := h.within i t hi
      rw [hreq] at hwithin ⊢
      rw [hactive, hdue, Nat.zero_add]
      exact Int.ofNat_le.1 (hwithin (group_of_entity_type hgroup))
  | _ => exact hgets.elim

/-- **A call keeps the groups within the limit.** -/
theorem room_of_call (hi : ts[i]? = some t) (ha : t.allowed o)
    (hG : roomChecked.onOp i o ch (s, ts)) (hx : s.exec i o ch = some (r, s')) {c : Conversation}
    (hc : s'.convs.find cid = some c) (hgroup : c.conversation_type = .GROUP) :
    s'.active cid + Pool.total (·.due cid) (ts.set i (t.next o r)) ≤ 500 := by
  have hmove := ConvMove.of_exec hx
  have hactive : s'.active cid ≤ s.active cid + o.activates cid := active_of_move ha hmove
  have hnext : (t.next o r).due cid + o.activates cid ≤ t.due cid ∨ t.Gets cid o r ∧
      o.activates cid = 0 ∧ (t.next o r).due cid = t.req.newcomers t.auth_uid :=
    GrantCall.due_next ha
  have htotal := Pool.total_set (f := (·.due cid)) (u := t.next o r) hi
  have hbound : s.active cid + Pool.total (·.due cid) ts ≤ 500 := by
    cases hold : s.convs.find cid with
    | none =>
      obtain ⟨hzero, hdue⟩ := h.zero_of_none hold
      omega
    | some c₀ =>
      obtain ⟨c', hc', htype⟩ := typed_of_move ha hmove hold
      obtain rfl := Option.some.inj (hc.symm.trans hc')
      exact h.room cid c₀ hold (htype.symm.trans hgroup)
  rcases hnext with hle | ⟨hgets, hact, hdue⟩
  · omega
  · have hroom := h.room_of_gets hi ha hG hx hc hgroup hgets
    omega

/-- **A call keeps the invariant.** -/
theorem call (hi : ts[i]? = some t) (ha : t.allowed o) (hG : roomChecked.onOp i o ch (s, ts))
    (hx : s.exec i o ch = some (r, s')) : LimitInv (ts.set i (t.next o r)) s' where
  people k m hm := h.people_of_move hi ha (.of_exec hx) hm
  granted j u hu cid n hgrant := by
    have hkeep {c : Conversation} (hc : s.convs.find cid = some c) :
        ∃ c, s'.convs.find cid = some c := by
      obtain ⟨c', hc', -⟩ := typed_of_move ha (.of_exec hx) hc
      exact ⟨c', hc'⟩
    rcases Pool.getElem?_set_cases hu with ⟨-, rfl⟩ | ⟨-, hold⟩
    · rcases GrantCall.grant_next hgrant with ⟨k, hold⟩ | hgets
      · obtain ⟨c, hc⟩ := h.granted i t hi cid k hold
        exact hkeep hc
      · exact found_of_gets ha hx hgets
    · obtain ⟨c, hc⟩ := h.granted j u hold cid n hgrant
      exact hkeep hc
  within j u hu := by
    rcases Pool.getElem?_set_cases hu with ⟨-, rfl⟩ | ⟨-, hold⟩
    · rw [t.next_req, t.next_auth_uid]
      exact h.within i t hi
    · exact h.within j u hold
  room cid c hc hgroup := h.room_of_call hi ha hG hx hc hgroup

/-- The arrival of a request keeps it. -/
theorem arrive {auth_uid : String} {req : ConvReq} (hwithin : req.WithinLimit auth_uid)
    (requests : List (String × ConvReq)) :
    LimitInv (ts ++ [⟨auth_uid, req, none⟩]) { s with requests := requests } where
  people := h.people
  granted j u hu cid n hgrant := by
    rcases Pool.getElem?_append_cases hu with ⟨-, rfl⟩ | ⟨-, hold⟩
    · cases hgrant
    · exact h.granted j u hold cid n hgrant
  within j u hu := by
    rcases Pool.getElem?_append_cases hu with ⟨-, rfl⟩ | ⟨-, hold⟩
    · exact hwithin
    · exact h.within j u hold
  room cid c hc hgroup := by
    have htotal : Pool.total (·.due cid) (ts ++ [(⟨auth_uid, req, none⟩ : GrantCall)]) =
        Pool.total (·.due cid) ts := Pool.total_append rfl
    rw [htotal]
    exact h.room cid c hc hgroup

/-- And so does the end of a thread. -/
theorem stop (hi : ts[i]? = some t) : LimitInv (ts.set i t.stop) s where
  people := h.people
  granted j u hu cid n hgrant := by
    rcases Pool.getElem?_set_cases hu with ⟨-, rfl⟩ | ⟨-, hold⟩
    · cases hgrant
    · exact h.granted j u hold cid n hgrant
  within j u hu := by
    rcases Pool.getElem?_set_cases hu with ⟨-, rfl⟩ | ⟨-, hold⟩
    · exact h.within i t hi
    · exact h.within j u hold
  room cid c hc hgroup := by
    have hbound := h.room cid c hc hgroup
    have htotal := Pool.total_set (f := (·.due cid)) (u := t.stop) hi
    have hzero : t.stop.due cid = 0 := GrantCall.due_of_none rfl
    omega

end LimitInv

end Steps

/-! ### Over a run -/

variable {cfg : ConversationServiceConfig}

theorem limitInv_empty : LimitInv [] {} where
  people _ m hm := absurd (hm : none = some m) (Option.some_ne_none m).symm
  granted _ t hi := absurd (hi : none = some t) (Option.some_ne_none t).symm
  within _ t hi := absurd (hi : none = some t) (Option.some_ne_none t).symm
  room _ c hc := absurd (hc : none = some c) (Option.some_ne_none c).symm

/-- **The limit of a group.** In every run in which no group is created beyond the limit and the
check of `AddMembers` is right when it is made, no group has more than 500 active members. -/
theorem group_limit {p : Pool ConvOp ConvOp.Res (ConvState × List GrantCall)}
    (hr : (grantingService cfg).Reach roomChecked ⟨[], {}, []⟩ p) {cid : String} {c : Conversation}
    (hc : p.shared.1.convs.find cid = some c) (hgroup : c.conversation_type = .GROUP) :
    p.shared.1.active cid ≤ 500 := by
  have hinv : LimitInv p.shared.2 p.shared.1 := by
    refine Machine.tracked_invariant (Q := fun _ ↦ True) hr ⟨limitInv_empty, .nil⟩ ?_ ?_
    · intro ts s i t o ch r s' h hi ha hG hx
      exact ⟨GrantCall.admits_of_exec hx, h.call hi ha hG hx⟩
    · intro ts p e p' h hm hG hx
      cases e with
      | arrive auth_uid req =>
        obtain rfl := Option.some.inj hx
        exact ⟨h.arrive hG.2 _, hm.spawn (GrantCall.handle_rpc_meets hG.1) _⟩
      | crash i =>
        obtain rfl := Option.some.inj hx
        show LimitInv (ts.modify i _) _ ∧ Pool.Meets _ _ (ts.modify i _) _
        rw [List.modify_eq_set_getElem?]
        cases hi : ts[i]? with
        | none => exact ⟨h, hm.stop (fun _ ↦ trivial) i _⟩
        | some t => exact ⟨h.stop hi, hm.set i (q := .ret ()) trivial _⟩
  have hroom := hinv.room cid c hc hgroup
  omega

/-- Alice gathers a group, and adds two of her friends by calls that overlap, while Bob quits. -/
theorem group_limit_friends :
    ∃ p, (grantingService ⟨""⟩).Reach roomChecked ⟨[], {}, []⟩ p ∧
      (p.shared.1.members.rows.map fun m ↦ (m.user_id, m.is_quit)) =
        [("alice", false), ("bob", true), ("carol", false), ("erin", false), ("dave", false)] ∧
      p.shared.1.active "g_1" ≤ 500 := by
  obtain ⟨p, hp, hrows, hgroup⟩ := Machine.exists_of_run (grantingService ⟨""⟩) roomChecked
    ⟨[], {}, []⟩ (aliceGathers ["bob", "carol"] ++
      [.event (.arrive "alice" (.add { conversation_id := "g_1", member_ids := ["dave"] })),
        .event (.arrive "alice" (.add { conversation_id := "g_1", member_ids := ["erin"] })),
        .event (.arrive "bob" (.quit "g_1"))] ++
      List.replicate 3 (.call 1 {}) ++ List.replicate 5 (.call 2 {}) ++
      List.replicate 5 (.call 3 {}) ++ List.replicate 2 (.call 1 {}))
    (fun p ↦ (p.shared.1.members.rows.map fun m ↦ (m.user_id, m.is_quit)) =
        [("alice", false), ("bob", true), ("carol", false), ("erin", false), ("dave", false)] ∧
      (p.shared.1.convs.find "g_1").map (·.conversation_type) = some .GROUP) (by decide +kernel)
  obtain ⟨c, hc, htype⟩ := Option.map_eq_some_iff.1 hgroup
  exact ⟨p, hp, hrows, group_limit hp hc htype⟩

/-! ### Beyond the limit -/

section Create

variable (auth_uid cid : String) {req : conversation.CreateConversationReq}

/-- **A group gets as many members as its creation names**, when they are different. -/
theorem reach_of_create (hgroup : req.type = .GROUP) (hne : req.member_ids ≠ [])
    (hnodup : req.member_ids.Nodup) (hothers : auth_uid ∉ req.member_ids) :
    ∃ p c, (conversationService cfg).Reach .any ⟨[], {}⟩ p ∧
      p.shared.requests = [(auth_uid, .create req)] ∧ p.shared.convs.find "g_1" = some c ∧
      c.conversation_type = .GROUP ∧ p.shared.active "g_1" = req.member_ids.length + 1 := by
  have herror : create_error req = none := by
    rw [create_error, hgroup, if_neg (by decide), if_neg fun h ↦ absurd h.1 (by decide),
      if_neg fun h ↦ hne h.2]
  have hbody : CreateConversation cfg auth_uid req =
      op uuid >>= fun id ↦ insert_conversation cfg auth_uid ("g_" ++ id) req := by
    rw [CreateConversation, herror]
    exact if_neg (by rw [hgroup]; decide)
  have hdiffer : MembersDiffer id auth_uid req := by
    rw [MembersDiffer, List.map_id, List.nodup_cons]
    exact ⟨fun hmem ↦ hothers (List.mem_of_mem_filter hmem), hnodup.filter _⟩
  obtain ⟨s, rsp, hexec, hrequests, hfind, hmembers⟩ : ∃ s rsp,
      (insert_conversation cfg auth_uid "g_1" req).Exec (ConvState.execBy id 0)
        { requests := [(auth_uid, .create req)] } (.ok rsp) s ∧ _ :=
    exec_insert_conversation ⟨rfl, fun _ hm ↦ absurd hm List.not_mem_nil⟩ hdiffer
  rw [ConvState.execBy_id] at hexec
  have hrun : (handle_rpc cfg auth_uid (.create req)).Exec (ConvState.exec 0)
      { requests := [(auth_uid, .create req)] } ()
      { s with answers := (0, .ok rsp) :: s.answers } := by
    refine Exec.bind (a := .ok rsp) ?_ (.call (c := {}) rfl (.ret _ _))
    show Exec _ (CreateConversation cfg auth_uid req) _ _ _
    rw [hbody]
    have huuid (s : ConvState) : ConvState.exec 0 uuid { uuid := "1" } s = some ("1", s) := rfl
    exact .call (huuid _) hexec
  have harrive : (conversationService cfg).Step .any ⟨[], {}⟩
      ⟨[handle_rpc cfg auth_uid (.create req)], { requests := [(auth_uid, .create req)] }⟩ :=
    .event (e := .arrive auth_uid (.create req)) trivial rfl
  refine ⟨_, _, .head harrive (Machine.reach_of_exec (i := 0) rfl hrun), hrequests, hfind, ?_, ?_⟩
  · show entity_type req.type = _
    rw [hgroup]
    rfl
  · have hfilter : req.member_ids.filter (· ≠ auth_uid) = req.member_ids :=
      List.filter_eq_self.2 fun mid hmid ↦ decide_eq_true fun heq ↦ hothers (heq ▸ hmid)
    show s.members.count _ = _
    rw [Table.count_insertAll hmembers, countP_new_members, length_new_members, ConvReq.newcomers,
      hfilter]
    exact Nat.zero_add _

end Create

theorem repr_injective : Function.Injective Nat.repr := by
  intro a b h
  have hdigits : Nat.toDigits 10 a = Nat.toDigits 10 b := by
    rw [← Nat.toList_repr, ← Nat.toList_repr, h]
  rw [← Nat.ofDigitChars_ten_toDigits (n := a), hdigits, Nat.ofDigitChars_ten_toDigits]

/-- The users `0`, `1` and so on. -/
def users (n : ℕ) : List String := (List.range n).map Nat.repr

/-- User `n` creates a group with the users before them. -/
theorem group_of_users (cfg : ConversationServiceConfig) {n : ℕ} (hn : 0 < n) :
    ∃ p c, (conversationService cfg).Reach .any ⟨[], {}⟩ p ∧
      p.shared.requests = [(Nat.repr n, .create { type := .GROUP, member_ids := users n })] ∧
      p.shared.convs.find "g_1" = some c ∧ c.conversation_type = .GROUP ∧
      p.shared.active "g_1" = n + 1 := by
  have hlength : (users n).length = n := by
    rw [users, List.length_map, List.length_range]
  have hothers : Nat.repr n ∉ users n := by
    intro hmem
    obtain ⟨k, hk, heq⟩ := List.mem_map.1 hmem
    have hlt := List.mem_range.1 hk
    have hkn := repr_injective heq
    omega
  obtain ⟨p, c, hp, hrequests, hc, htype, hactive⟩ : ∃ p c,
      (conversationService cfg).Reach .any ⟨[], {}⟩ p ∧
        p.shared.requests = [(Nat.repr n, .create { type := .GROUP, member_ids := users n })] ∧ _ :=
    reach_of_create (Nat.repr n) rfl (List.ne_nil_of_length_pos (hlength.symm ▸ hn))
      (List.nodup_range.map repr_injective) hothers
  refine ⟨p, c, hp, hrequests, hc, htype, ?_⟩
  rw [hactive]
  exact congrArg (· + 1) hlength

/-- **A group of 501**: `CreateConversation` has no limit. -/
theorem group_of_501 :
    ∃ p c, (conversationService ⟨""⟩).Reach .any ⟨[], {}⟩ p ∧
      p.shared.requests =
        [(Nat.repr 500, .create { type := .GROUP, member_ids := users 500 })] ∧
      p.shared.convs.find "g_1" = some c ∧ c.conversation_type = .GROUP ∧
      ¬ p.shared.active "g_1" ≤ 500 := by
  obtain ⟨p, c, hp, hrequests, hc, htype, hactive⟩ := group_of_users ⟨""⟩
    (Nat.zero_lt_succ 499)
  exact ⟨p, c, hp, hrequests, hc, htype, by omega⟩

end ChatNow
