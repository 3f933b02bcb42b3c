import ChatNow.Conversation.Handlers

/-!
# Who may make how many members active

The contract of the RPCs by which the members of a conversation change: `CreateConversation`,
`AddMembers`, `RemoveMembers` and `QuitConversation`. A call makes nobody active before it has got a
**grant** (`GrantCall.grant`), a conversation and a number: the creation gets it when it has
inserted the row of the conversation, for the members that it is about to insert, and `AddMembers`
when it has read a row by which its request is within `kGroupMemberLimit`. Every write that makes a
member active uses one of the number up.
-/

namespace ChatNow

open Prog ConvOp

/-! ### Requests -/

/-- The requests by which members come and go. -/
def ConvReq.OfMembers : ConvReq → Prop
  | .create _ | .add _ | .remove _ | .quit _ => True
  | _ => False

/-- How many members a request may make active. -/
def ConvReq.newcomers (auth_uid : String) : ConvReq → ℕ
  | .create req => (req.member_ids.filter (· ≠ auth_uid)).length + 1
  | .add req => req.member_ids.length
  | _ => 0

/-- The check of `AddMembers`, by the row that it has read. -/
def ConvReq.Passes (c : Conversation) : ConvReq → Prop
  | .add req => c.conversation_type = .GROUP ∧
      c.member_count + req.member_ids.length ≤ kGroupMemberLimit
  | _ => False

instance (req : ConvReq) : Decidable req.OfMembers :=
  match req with
  | .create _ | .add _ | .remove _ | .quit _ => .isTrue trivial
  | .update _ | .dismiss _ | .transfer _ | .changeRole _ | .mute _ _ | .pin _ _ | .visible _ _
  | .draft _ _ | .read _ _ | .ack _ _ => .isFalse id

instance (c : Conversation) (req : ConvReq) : Decidable (req.Passes c) :=
  match req with
  | .add _ => inferInstanceAs (Decidable (_ ∧ _))
  | .create _ | .update _ | .dismiss _ | .quit _ | .remove _ | .transfer _ | .changeRole _
  | .mute _ _ | .pin _ _ | .visible _ _ | .draft _ _ | .read _ _ | .ack _ _ => .isFalse id

theorem length_new_members (auth_uid cid : String) (now : ℤ)
    (req : conversation.CreateConversationReq) :
    (new_members auth_uid cid now req).length = (ConvReq.create req).newcomers auth_uid := by
  rw [new_members, List.length_cons, List.length_map]
  rfl

/-! ### The contract -/

/-- A call. -/
structure GrantCall where
  auth_uid : String
  req : ConvReq
  /-- The conversation in which it may make members active, and how many yet. -/
  grant : Option (String × ℕ) := none

namespace GrantCall

variable (t : GrantCall)

/-- How many members the call may still make active in a conversation. -/
def due (cid : String) : ℕ :=
  match t.grant with
  | none => 0
  | some (cid', n) => if cid' = cid then n else 0

/-- The call may still make this many members active. -/
def May (cid : String) (n : ℕ) : Prop := ∃ k, t.grant = some (cid, k) ∧ n ≤ k

/-- The call gets a grant for all that it asks for. -/
def granted (cid : String) : GrantCall :=
  { t with grant := some (cid, t.req.newcomers t.auth_uid) }

/-- It has used one of it up. -/
def spend : GrantCall := { t with grant := t.grant.map fun g ↦ (g.1, g.2 - 1) }

/-- It makes nobody active any more. -/
def stop : GrantCall := { t with grant := none }

/-- What the call may do. -/
def allowed : ConvOp → Prop
  | insertConv c => ∃ req cid now, t.req = .create req ∧
      c = { new_conversation t.auth_uid cid req with create_time := now, update_time := now }
  | appendAfterCreate rows => ∃ cid, (∀ m ∈ rows, m.conversation_id = cid) ∧ t.May cid rows.length
  | append m => t.May m.conversation_id 1
  | writeRejoin m => t.May m.conversation_id 1
  | writeQuit m => m.is_quit = true
  | updateConv _ | updateMember _ | writeRole _ | transferOwner _ _ _ | updateLastReadSeq _ _ _
  | updateLastAckSeq _ _ _ => False
  | _ => True

/-- What the call may get. -/
def admits : (o : ConvOp) → o.Res → Prop
  | selectMember cid uid, some m => m.key = (cid, uid)
  | selectConv cid, some c => c.conversation_id = cid
  | _, _ => True

/-- What becomes of its grant with an answer. -/
def next : (o : ConvOp) → o.Res → GrantCall
  | selectConv cid, some c => if t.req.Passes c then t.granted cid else t
  | insertConv c, true => t.granted c.conversation_id
  | appendAfterCreate _, _ => t.stop
  | append _, _ => t.spend
  | writeRejoin _, _ => t.spend
  | respond _, _ => t.stop
  | _, _ => t

variable {t} {cid : String} {n : ℕ}

theorem May.mono (h : t.May cid (n + 1)) : t.May cid n := by
  obtain ⟨k, hk, hle⟩ := h
  exact ⟨k, hk, by omega⟩

theorem May.spend (h : t.May cid (n + 1)) : t.spend.May cid n := by
  obtain ⟨k, hk, hle⟩ := h
  refine ⟨k - 1, ?_, by omega⟩
  rw [GrantCall.spend, hk]
  rfl

theorem May.one (h : t.May cid (n + 1)) : t.May cid 1 := by
  obtain ⟨k, hk, hle⟩ := h
  exact ⟨k, hk, by omega⟩

theorem May.le_due (h : t.May cid n) : n ≤ t.due cid := by
  obtain ⟨k, hk, hle⟩ := h
  rw [due, hk]
  show n ≤ if cid = cid then k else 0
  rw [if_pos rfl]
  exact hle

theorem due_of_none (h : t.grant = none) : t.due cid = 0 := by
  rw [due, h]

theorem due_granted (cid' : String) :
    (t.granted cid').due cid = if cid' = cid then t.req.newcomers t.auth_uid else 0 := rfl

theorem due_spend : t.spend.due cid = t.due cid - 1 := by
  rw [due, due, spend]
  cases t.grant with
  | none => rfl
  | some g =>
    show (if g.1 = cid then g.2 - 1 else 0) = (if g.1 = cid then g.2 else 0) - 1
    split
    · rfl
    · rfl

theorem next_req (o : ConvOp) (r : o.Res) : (t.next o r).req = t.req := by
  unfold next
  split
  · split <;> rfl
  all_goals rfl

theorem next_auth_uid (o : ConvOp) (r : o.Res) : (t.next o r).auth_uid = t.auth_uid := by
  unfold next
  split
  · split <;> rfl
  all_goals rfl

end GrantCall

/-- What a call may add. -/
def grantContract : Contract ConvOp ConvOp.Res GrantCall where
  allowed t o := t.allowed o
  admits _ o r := GrantCall.admits o r
  next t o r := t.next o r

/-! ### What becomes of a grant -/

/-- How many members of a conversation an operation may make active. -/
def ConvOp.activates (cid : String) : ConvOp → ℕ
  | append m => if m.conversation_id = cid then 1 else 0
  | writeRejoin m => if m.conversation_id = cid then 1 else 0
  | appendAfterCreate rows => rows.countP (·.conversation_id = cid)
  | _ => 0

/-- The answer gives the call a grant for the conversation. -/
def GrantCall.Gets (t : GrantCall) (cid : String) : (o : ConvOp) → o.Res → Prop
  | selectConv cid', some c => cid' = cid ∧ t.req.Passes c
  | insertConv c, true => c.conversation_id = cid
  | _, _ => False

namespace GrantCall

variable {t : GrantCall} {o : ConvOp} {r : o.Res} {cid : String}

/-- **Whatever is made active is taken off the grant**, unless the call gets one. -/
theorem due_next (ha : t.allowed o) :
    (t.next o r).due cid + o.activates cid ≤ t.due cid ∨
      t.Gets cid o r ∧ o.activates cid = 0 ∧
        (t.next o r).due cid = t.req.newcomers t.auth_uid := by
  have hgranted {cid' : String} (hact : o.activates cid = 0) :
      (t.granted cid').due cid + o.activates cid ≤ t.due cid ∨ cid' = cid ∧
        o.activates cid = 0 ∧ (t.granted cid').due cid = t.req.newcomers t.auth_uid := by
    rw [GrantCall.due_granted, hact]
    split
    · next heq => exact .inr ⟨heq, rfl, rfl⟩
    · exact .inl (Nat.zero_le _)
  have hspend {m : ConversationMember} (hmay : t.May m.conversation_id 1) :
      t.spend.due cid + (if m.conversation_id = cid then 1 else 0) ≤ t.due cid := by
    rw [GrantCall.due_spend]
    split
    · next heq =>
      have hle := (heq ▸ hmay).le_due
      omega
    · omega
  cases o with
  | selectConv cid' =>
    cases r with
    | none => exact .inl (Nat.le_refl _)
    | some c =>
      by_cases hpasses : t.req.Passes c
      · have hnext : t.next (selectConv cid') (some c) = t.granted cid' := if_pos hpasses
        rw [hnext]
        exact (hgranted rfl).imp_right fun ⟨heq, h⟩ ↦ ⟨⟨heq, hpasses⟩, h⟩
      · have hnext : t.next (selectConv cid') (some c) = t := if_neg hpasses
        rw [hnext]
        exact .inl (Nat.le_refl _)
  | insertConv c =>
    cases r with
    | false => exact .inl (Nat.le_refl _)
    | true => exact hgranted rfl
  | append m => exact .inl (hspend ha)
  | writeRejoin m => exact .inl (hspend ha)
  | appendAfterCreate rows =>
    obtain ⟨cid', hrows, hmay⟩ := ha
    refine .inl ?_
    show t.stop.due cid + rows.countP _ ≤ _
    rw [GrantCall.due_of_none rfl, Nat.zero_add]
    rcases eq_or_ne cid' cid with rfl | hne
    · exact Nat.le_trans List.countP_le_length hmay.le_due
    · rw [List.countP_eq_zero.2 fun m hm heq ↦
        hne ((hrows m hm).symm.trans (of_decide_eq_true heq))]
      exact Nat.zero_le _
  | respond rsp =>
    refine .inl ?_
    show t.stop.due cid + 0 ≤ _
    rw [GrantCall.due_of_none rfl]
    exact Nat.zero_le _
  | _ => exact .inl (Nat.le_refl _)

/-- A grant is one that the call has had, or gets. -/
theorem grant_next {n : ℕ} (hgrant : (t.next o r).grant = some (cid, n)) :
    (∃ k, t.grant = some (cid, k)) ∨ t.Gets cid o r := by
  have hgranted {cid' : String} (hgrant : (t.granted cid').grant = some (cid, n)) : cid' = cid :=
    congrArg Prod.fst (Option.some.inj hgrant)
  have hspend (hgrant : t.spend.grant = some (cid, n)) : ∃ k, t.grant = some (cid, k) := by
    obtain ⟨g, hg, heq⟩ := Option.map_eq_some_iff.1 hgrant
    obtain ⟨rfl, -⟩ := Prod.mk.inj heq
    exact ⟨g.2, hg⟩
  cases o with
  | selectConv cid' =>
    cases r with
    | none => exact .inl ⟨n, hgrant⟩
    | some c =>
      by_cases hpasses : t.req.Passes c
      · have hnext : t.next (selectConv cid') (some c) = t.granted cid' := if_pos hpasses
        rw [hnext] at hgrant
        exact .inr ⟨hgranted hgrant, hpasses⟩
      · have hnext : t.next (selectConv cid') (some c) = t := if_neg hpasses
        rw [hnext] at hgrant
        exact .inl ⟨n, hgrant⟩
  | insertConv c =>
    cases r with
    | false => exact .inl ⟨n, hgrant⟩
    | true => exact .inr (hgranted hgrant)
  | append m => exact .inl (hspend hgrant)
  | writeRejoin m => exact .inl (hspend hgrant)
  | appendAfterCreate rows => cases hgrant
  | respond rsp => cases hgrant
  | _ => exact .inl ⟨n, hgrant⟩

end GrantCall

/-! ### The RPCs keep to it -/

namespace GrantCall

variable {t : GrantCall} {cfg : ConversationServiceConfig} {cid uid : String} {n : ℕ}

theorem require_member_meets :
    (require_member_ cid uid).Meets grantContract t fun t' _ ↦ t' = t :=
  ⟨trivial, fun r _ ↦ by cases r <;> rfl⟩

theorem role_of_meets : (role_of_ cid uid).Meets grantContract t fun t' _ ↦ t' = t := by
  refine meets_op_bind.2 ⟨trivial, fun r _ ↦ ?_⟩
  cases r with
  | none => rfl
  | some m =>
    show Prog.Meets _ (if m.is_quit then _ else _) _ _
    split <;> rfl

theorem publish_members_meets :
    (publish_members cid).Meets grantContract t fun _ _ ↦ True := by
  refine meets_op_bind.2 ⟨trivial, fun uids _ ↦ ?_⟩
  split
  · trivial
  · exact ⟨trivial, fun _ _ ↦ trivial⟩

/-! Those who leave. -/

theorem set_quit_meets :
    (ConversationMemberTable.set_quit cid uid).Meets grantContract t fun _ _ ↦ True := by
  refine meets_op_bind.2 ⟨trivial, fun r _ ↦ ?_⟩
  cases r with
  | none => trivial
  | some m =>
    show Prog.Meets _ (if m.is_quit then _ else _) _ _
    split
    · trivial
    · exact ⟨trivial, fun now _ ↦ ⟨rfl, fun _ _ ↦ trivial⟩⟩

theorem QuitConversation_meets (auth_uid : String) :
    (QuitConversation auth_uid cid).Meets grantContract t fun _ _ ↦ True := by
  refine role_of_meets.bind fun _ role _ ↦ ?_
  split
  · trivial
  · refine require_member_meets.bind fun _ isMember _ ↦ ?_
    cases isMember with
    | false => trivial
    | true =>
      refine set_quit_meets.bind fun _ ok _ ↦ ?_
      cases ok with
      | false => trivial
      | true =>
        refine meets_op_bind.2 ⟨trivial, fun _ _ ↦ ?_⟩
        exact publish_members_meets.bind fun _ _ _ ↦ trivial

theorem remove_loop_meets (auth_uid : String) (uids : List String) (removed : ℕ) :
    (remove_loop auth_uid cid uids removed).Meets grantContract t fun _ _ ↦ True := by
  induction uids generalizing t removed with
  | nil => trivial
  | cons uid uids ih =>
    unfold remove_loop
    split
    · trivial
    · refine meets_op_bind.2 ⟨trivial, fun r _ ↦ ?_⟩
      cases r with
      | none => exact ih removed
      | some target =>
        show Prog.Meets _ (if target.is_quit then _ else _) _ _
        split
        · exact ih removed
        · split
          · trivial
          · exact set_quit_meets.bind fun _ _ _ ↦ ih (removed + 1)

theorem RemoveMembers_meets (auth_uid : String) (req : conversation.MemberIdsReq) :
    (RemoveMembers auth_uid req).Meets grantContract t fun _ _ ↦ True := by
  refine role_of_meets.bind fun _ role _ ↦ ?_
  split
  · trivial
  · refine (remove_loop_meets auth_uid _ 0).bind fun _ r _ ↦ ?_
    cases r with
    | error e => trivial
    | ok removed =>
      show Prog.Meets _ (if 0 < removed then _ else _) _ _
      split
      · refine meets_op_bind.2 ⟨trivial, fun _ _ ↦ ?_⟩
        exact publish_members_meets.bind fun _ _ _ ↦ trivial
      · trivial

/-! Those who come. -/

theorem rejoin_meets {role : MemberRole} {inviter_id : String} {source : JoinSource}
    (h : t.May cid (n + 1)) :
    (ConversationMemberTable.rejoin cid uid role inviter_id source).Meets grantContract t
      fun t' _ ↦ t'.May cid n := by
  refine meets_op_bind.2 ⟨trivial, fun r hr ↦ ?_⟩
  cases r with
  | none => exact h.mono
  | some m =>
    obtain rfl : m.conversation_id = cid := congrArg Prod.fst (hr : m.key = (cid, uid))
    exact ⟨trivial, fun now _ ↦ ⟨h.one, fun _ _ ↦ h.spend⟩⟩

/-- A round of the loop uses up one of the grant at most. -/
theorem add_member_meets {auth_uid : String} {now : ℤ} (h : t.May cid (n + 1)) :
    (add_member auth_uid cid now uid).Meets grantContract t fun t' _ ↦ t'.May cid n := by
  refine meets_op_bind.2 ⟨trivial, fun r _ ↦ ?_⟩
  cases r with
  | none => exact ⟨h.one, fun _ _ ↦ h.spend⟩
  | some m =>
    show Prog.Meets _ (if m.is_quit then _ else _) _ _
    split
    · exact rejoin_meets h
    · exact h.mono

theorem add_loop_meets (auth_uid : String) (now : ℤ) {uids : List String}
    (h : t.May cid uids.length) :
    (add_loop auth_uid cid now uids).Meets grantContract t fun _ _ ↦ True := by
  induction uids generalizing t with
  | nil => trivial
  | cons uid uids ih =>
    refine (add_member_meets h).bind fun t' ok ht' ↦ ?_
    exact (ih ht').bind fun _ _ _ ↦ trivial

theorem AddMembers_meets {auth_uid : String} {req : conversation.MemberIdsReq}
    (hreq : t.req = .add req) :
    (AddMembers auth_uid req).Meets grantContract t fun _ _ ↦ True := by
  refine meets_op_bind.2 ⟨trivial, fun r hr ↦ ?_⟩
  cases r with
  | none => trivial
  | some c =>
    show Prog.Meets _ (if c.conversation_type ≠ .GROUP then _ else _)
      (if t.req.Passes c then _ else _) _
    split
    · trivial
    · next hgroup =>
      refine role_of_meets.bind fun t' role ht' ↦ ?_
      split
      · trivial
      · split
        · trivial
        · next hlimit =>
          have hpasses : t.req.Passes c := by
            rw [hreq]
            exact ⟨not_not.1 hgroup, Int.not_lt.1 hlimit⟩
          rw [if_pos hpasses] at ht'
          have hmay : t'.May req.conversation_id req.member_ids.length := by
            rw [ht']
            refine ⟨_, rfl, ?_⟩
            rw [hreq]
            exact Nat.le_refl _
          refine meets_op_bind.2 ⟨trivial, fun now _ ↦ ?_⟩
          refine (add_loop_meets auth_uid now hmay).bind fun _ failed _ ↦ ?_
          refine meets_op_bind.2 ⟨trivial, fun _ _ ↦ ?_⟩
          exact publish_members_meets.bind fun _ _ _ ↦ trivial

theorem exists_meets {req : conversation.CreateConversationReq} (hreq : t.req = .create req) :
    (ConversationTable.exists cid).Meets grantContract t fun t' _ ↦ t' = t := by
  refine meets_op_bind.2 ⟨trivial, fun r _ ↦ ?_⟩
  cases r with
  | none => rfl
  | some c =>
    refine if_neg fun hpasses ↦ ?_
    rw [hreq] at hpasses
    exact hpasses

theorem insert_conversation_meets {req : conversation.CreateConversationReq} (cid : String)
    (hreq : t.req = .create req) :
    (insert_conversation cfg t.auth_uid cid req).Meets grantContract t fun _ _ ↦ True := by
  refine meets_op_bind.2 ⟨trivial, fun now _ ↦ ?_⟩
  refine meets_op_bind.2 ⟨⟨req, cid, now, hreq, rfl⟩, fun r _ ↦ ?_⟩
  cases r with
  | false => trivial
  | true =>
    refine meets_op_bind.2 ⟨trivial, fun now' _ ↦ ?_⟩
    refine meets_op_bind.2 ⟨⟨cid, fun m hm ↦ conversation_id_of_mem_new_members hm, _, rfl, ?_⟩,
      fun r _ ↦ ?_⟩
    · rw [length_new_members, ← hreq]
      exact Nat.le_refl _
    · cases r with
      | false => trivial
      | true => exact ⟨trivial, fun _ _ ↦ ⟨trivial, fun _ _ ↦ trivial⟩⟩

theorem CreateConversation_meets {req : conversation.CreateConversationReq}
    (hreq : t.req = .create req) :
    (CreateConversation cfg t.auth_uid req).Meets grantContract t fun _ _ ↦ True := by
  unfold CreateConversation
  split
  · trivial
  · split
    · refine (exists_meets hreq).bind fun t' there ht' ↦ ?_
      subst ht'
      cases there with
      | false => exact insert_conversation_meets _ hreq
      | true =>
        refine require_member_meets.bind fun _ isMember _ ↦ ?_
        cases isMember <;> trivial
    · refine meets_op_bind.2 ⟨trivial, fun id _ ↦ ?_⟩
      exact insert_conversation_meets _ hreq

/-- **Every request by which members come and go** keeps to the contract. -/
theorem handle_rpc_meets {auth_uid : String} {req : ConvReq} (h : req.OfMembers) :
    (handle_rpc cfg auth_uid req).Meets grantContract { auth_uid, req } fun _ _ ↦ True := by
  have hbody : (req.body cfg auth_uid).Meets grantContract { auth_uid, req } fun _ _ ↦ True := by
    cases req with
    | create req => exact CreateConversation_meets (t := { auth_uid, req := .create req }) rfl
    | quit cid => exact QuitConversation_meets auth_uid
    | add req => exact AddMembers_meets rfl
    | remove req => exact RemoveMembers_meets auth_uid req
    | _ => exact absurd h id
  exact hbody.bind fun _ _ _ ↦ ⟨trivial, fun _ _ ↦ trivial⟩

end GrantCall

end ChatNow
