import ChatNow.Conversation.Handlers

/-!
# What the conversation service writes

The contract of the RPCs of `Handlers.lean`. A row that is written back is the row that the call has
read last (`ConvCall.held`, `ConvCall.conv`), but for the columns that its RPC is about; a
conversation is written back, gets a member and changes its owner only when the call has seen a
member of it (`ConvCall.seen`); and the members of a new conversation are those of its request.
-/

namespace ChatNow

open Prog ConvOp

/-! ### The contract -/

/-- A call. -/
structure ConvCall where
  auth_uid : String
  req : ConvReq
  /-- The member row that it has read last. -/
  held : Option ConversationMember := none
  /-- The conversation row that it has read last. -/
  conv : Option Conversation := none
  /-- The conversations of which it has seen a member. -/
  seen : List String := []
  /-- The conversation row that it has inserted. -/
  inserted : Option Conversation := none

/-- Nothing is changed of the columns that other RPCs are about. -/
structure ConversationMember.Keeps (m₀ m : ConversationMember) : Prop where
  key : m.key = m₀.key
  role : m.role = m₀.role
  is_quit : m.is_quit = m₀.is_quit
  last_read_seq : m.last_read_seq = m₀.last_read_seq
  last_ack_seq : m.last_ack_seq = m₀.last_ack_seq

/-- Nothing is changed of a conversation but its texts and, on dismissal, its status. -/
structure Conversation.Keeps (c₀ c : Conversation) : Prop where
  conversation_id : c.conversation_id = c₀.conversation_id
  conversation_type : c.conversation_type = c₀.conversation_type
  member_count : c.member_count = c₀.member_count
  owner_id : c.owner_id = c₀.owner_id
  max_seq : c.max_seq = c₀.max_seq
  status : c.status = c₀.status ∨ c.status = .DISMISSED

/-- The row under the new one, and what the operation changes of it. -/
structure ConvOp.Changes (o : ConvOp) (m₀ m : ConversationMember) : Prop where
  key : m.key = m₀.key
  last_read_seq : m.last_read_seq = m₀.last_read_seq
  last_ack_seq : m.last_ack_seq = m₀.last_ack_seq
  /-- The role is kept, or it is not that of an owner. -/
  role : m.role = m₀.role ∨ m.role ≠ .OWNER
  /-- A member quits, comes back, or stays. -/
  is_quit : (o.delta = 0 ∧ m.is_quit = m₀.is_quit) ∨
    (o.delta = -1 ∧ m₀.is_quit = false ∧ m.is_quit = true) ∨ (o.delta = 1 ∧ m.is_quit = false)

theorem ConversationMember.Keeps.changes {o : ConvOp} {m₀ m : ConversationMember} (h : m₀.Keeps m)
    (hdelta : o.delta = 0) : o.Changes m₀ m :=
  ⟨h.key, h.last_read_seq, h.last_ack_seq, .inl h.role, .inl ⟨hdelta, h.is_quit⟩⟩

namespace ConvCall

variable (t : ConvCall)

/-- What the call may do that writes no member row back. -/
def writes : ConvOp → Prop
  | updateConv c => c.conversation_id ∈ t.seen ∧ ∃ c₀, t.conv = some c₀ ∧ c₀.Keeps c
  | insertConv c => ∃ req cid now, t.req = .create req ∧
      c = { new_conversation t.auth_uid cid req with create_time := now, update_time := now }
  | append m => m.conversation_id ∈ t.seen ∧ m.role = .NORMAL ∧ m.is_quit = false
  | appendAfterCreate rows => ∃ req c now, t.req = .create req ∧ t.inserted = some c ∧
      rows = new_members t.auth_uid c.conversation_id now req
  | transferOwner cid _ _ => cid ∈ t.seen
  | _ => True

/-- What the call may do. -/
def allowed (o : ConvOp) : Prop :=
  (∀ m, o.rewrites = some m → ∃ m₀, t.held = some m₀ ∧ o.Changes m₀ m) ∧ t.writes o

/-- What the call may get. -/
def admits : (o : ConvOp) → o.Res → Prop
  | selectMember cid uid, some m => m.key = (cid, uid)
  | selectConv cid, some c => c.conversation_id = cid
  | _, _ => True

/-- What it knows after an answer. -/
def next : (o : ConvOp) → o.Res → ConvCall
  | selectMember _ _, some m => { t with held := some m, seen := m.conversation_id :: t.seen }
  | selectConv _, some c => { t with conv := some c }
  | insertConv c, true => { t with inserted := some c }
  | appendAfterCreate _, _ => { t with inserted := none }
  | _, _ => t

theorem next_req (o : ConvOp) (r : o.Res) : (t.next o r).req = t.req := by
  unfold next
  split <;> rfl

theorem next_auth_uid (o : ConvOp) (r : o.Res) : (t.next o r).auth_uid = t.auth_uid := by
  unfold next
  split <;> rfl

variable {t}

theorem seen_next {cid : String} (o : ConvOp) (r : o.Res) (h : cid ∈ t.seen) :
    cid ∈ (t.next o r).seen := by
  unfold next
  split
  · exact List.mem_cons_of_mem _ h
  · exact h
  · exact h
  · exact h
  · exact h

end ConvCall

/-- What a call of the conversation service may write. -/
def convContract : Contract ConvOp ConvOp.Res ConvCall where
  allowed t o := t.allowed o
  admits _ o r := ConvCall.admits o r
  next t o r := t.next o r

/-! ### The RPCs keep to it -/

section Meets

variable {t : ConvCall} {cfg : ConversationServiceConfig} {α : Type}

/-- An operation that writes no row back. -/
theorem allowed_of_not_rewrites {o : ConvOp} (ho : o.rewrites = none) (h : t.writes o) :
    t.allowed o := by
  refine ⟨fun m hm ↦ ?_, h⟩
  rw [ho] at hm
  cases hm

/-- A call goes on seeing what it has seen. -/
theorem seen_of_meets {cid : String} {q : ConvM α} {Q : ConvCall → α → Prop}
    (h : q.Meets convContract t Q) (hseen : cid ∈ t.seen) :
    q.Meets convContract t fun t' a ↦ Q t' a ∧ cid ∈ t'.seen :=
  h.keeps (fun _ o r ht ↦ ConvCall.seen_next o r ht) hseen

/-- The rule for the query for a member. -/
theorem selectMember_meets {cid uid : String} {f : Option ConversationMember → ConvM α}
    {Q : ConvCall → α → Prop} (hnone : (f none).Meets convContract t Q)
    (hsome : ∀ m, m.key = (cid, uid) → (f (some m)).Meets convContract
      { t with held := some m, seen := m.conversation_id :: t.seen } Q) :
    (op (selectMember cid uid) >>= f).Meets convContract t Q := by
  refine meets_op_bind.2 ⟨allowed_of_not_rewrites rfl trivial, fun r hr ↦ ?_⟩
  cases r with
  | none => exact hnone
  | some m => exact hsome m hr

theorem require_member_meets (cid uid : String) :
    (require_member_ cid uid).Meets convContract t fun _ _ ↦ True :=
  selectMember_meets trivial fun _ _ ↦ trivial

/-- Whoever has a role that is not `NORMAL` has been seen. -/
theorem role_of_meets (cid uid : String) :
    (role_of_ cid uid).Meets convContract t fun t' role ↦ role ≠ .NORMAL → cid ∈ t'.seen := by
  refine selectMember_meets (fun h ↦ absurd rfl h) fun m hm ↦ ?_
  show Prog.Meets _ (if m.is_quit then _ else _) _ _
  have hcid : m.conversation_id = cid := congrArg Prod.fst hm
  split
  · exact fun h ↦ absurd rfl h
  · exact fun _ ↦ hcid ▸ List.mem_cons_self

theorem seen_of_owner {cid : String} {role : MemberRole} (hrole : ¬ role ≠ .OWNER)
    (h : role ≠ .NORMAL → cid ∈ t.seen) : cid ∈ t.seen := by
  refine h fun hnormal ↦ hrole ?_
  rw [hnormal]
  exact MemberRole.noConfusion

theorem seen_of_allowed {cid : String} {role : MemberRole}
    (hrole : ¬ (role ≠ .OWNER ∧ role ≠ .ADMIN)) (h : role ≠ .NORMAL → cid ∈ t.seen) :
    cid ∈ t.seen := by
  refine h fun hnormal ↦ hrole ?_
  rw [hnormal]
  exact ⟨MemberRole.noConfusion, MemberRole.noConfusion⟩

theorem publish_members_meets (cid : String) :
    (publish_members cid).Meets convContract t fun _ _ ↦ True := by
  refine meets_op_bind.2 ⟨allowed_of_not_rewrites rfl trivial, fun uids _ ↦ ?_⟩
  split
  · trivial
  · exact ⟨allowed_of_not_rewrites rfl trivial, fun _ _ ↦ trivial⟩

/-! The methods. -/

theorem set_quit_meets (cid uid : String) :
    (ConversationMemberTable.set_quit cid uid).Meets convContract t fun _ _ ↦ True := by
  refine selectMember_meets trivial fun m _ ↦ ?_
  show Prog.Meets _ (if m.is_quit then _ else _) _ _
  split
  · trivial
  · next hactive =>
    refine meets_op_bind.2 ⟨allowed_of_not_rewrites rfl trivial, fun now _ ↦ ?_⟩
    refine ⟨⟨fun m' hm' ↦ ⟨m, rfl, ?_⟩, trivial⟩, fun _ _ ↦ trivial⟩
    obtain rfl := Option.some.inj hm'
    exact ⟨rfl, rfl, rfl, .inl rfl, .inr (.inl ⟨rfl, Bool.eq_false_iff.2 hactive, rfl⟩)⟩

theorem rejoin_meets (cid uid inviter_id : String) (source : JoinSource) :
    (ConversationMemberTable.rejoin cid uid .NORMAL inviter_id source).Meets convContract t
      fun _ _ ↦ True := by
  refine selectMember_meets trivial fun m _ ↦ ?_
  refine meets_op_bind.2 ⟨allowed_of_not_rewrites rfl trivial, fun now _ ↦ ?_⟩
  refine ⟨⟨fun m' hm' ↦ ⟨m, rfl, ?_⟩, trivial⟩, fun _ _ ↦ trivial⟩
  obtain rfl := Option.some.inj hm'
  exact ⟨rfl, rfl, rfl, .inr MemberRole.noConfusion, .inr (.inr ⟨rfl, rfl⟩)⟩

theorem update_role_meets (cid uid : String) {role : MemberRole} (hrole : role ≠ .OWNER) :
    (ConversationMemberTable.update_role cid uid role).Meets convContract t fun _ _ ↦ True := by
  refine selectMember_meets trivial fun m _ ↦ ?_
  refine ⟨⟨fun m' hm' ↦ ⟨m, rfl, ?_⟩, trivial⟩, fun _ _ ↦ trivial⟩
  obtain rfl := Option.some.inj hm'
  exact ⟨rfl, rfl, rfl, .inr hrole, .inl ⟨rfl, rfl⟩⟩

theorem updateMember_allowed {m₀ m : ConversationMember} (hheld : t.held = some m₀)
    (h : m₀.Keeps m) : t.allowed (updateMember m) := by
  refine ⟨fun m' hm' ↦ ⟨m₀, hheld, ?_⟩, trivial⟩
  obtain rfl := Option.some.inj hm'
  exact h.changes rfl

theorem update_draft_meets (cid uid draft : String) :
    (ConversationMemberTable.update_draft cid uid draft).Meets convContract t fun _ _ ↦ True :=
  selectMember_meets trivial fun _ _ ↦
    ⟨updateMember_allowed rfl ⟨rfl, rfl, rfl, rfl, rfl⟩, fun _ _ ↦ trivial⟩

/-! The RPCs. -/

theorem exists_meets (cid : String) :
    (ConversationTable.exists cid).Meets convContract t fun t' _ ↦
      t'.req = t.req ∧ t'.auth_uid = t.auth_uid := by
  refine meets_op_bind.2 ⟨allowed_of_not_rewrites rfl trivial, fun r _ ↦ ?_⟩
  exact ⟨t.next_req _ r, t.next_auth_uid _ r⟩

theorem insert_conversation_meets {auth_uid : String} {req : conversation.CreateConversationReq}
    (cid : String) (hreq : t.req = .create req) (huid : t.auth_uid = auth_uid) :
    (insert_conversation cfg auth_uid cid req).Meets convContract t fun _ _ ↦ True := by
  subst huid
  refine meets_op_bind.2 ⟨allowed_of_not_rewrites rfl trivial, fun now _ ↦ ?_⟩
  refine meets_op_bind.2 ⟨allowed_of_not_rewrites rfl ⟨req, cid, now, hreq, rfl⟩, fun r _ ↦ ?_⟩
  cases r with
  | false => trivial
  | true =>
    refine meets_op_bind.2 ⟨allowed_of_not_rewrites rfl trivial, fun now' _ ↦ ?_⟩
    refine meets_op_bind.2 ⟨allowed_of_not_rewrites rfl ⟨req, _, now', hreq, rfl, rfl⟩,
      fun r _ ↦ ?_⟩
    cases r with
    | false => trivial
    | true =>
      exact ⟨allowed_of_not_rewrites rfl trivial, fun _ _ ↦
        ⟨allowed_of_not_rewrites rfl trivial, fun _ _ ↦ trivial⟩⟩

theorem CreateConversation_meets (auth_uid : String) (req : conversation.CreateConversationReq) :
    (CreateConversation cfg auth_uid req).Meets convContract ⟨auth_uid, .create req, none, none, [],
      none⟩ fun _ _ ↦ True := by
  unfold CreateConversation
  split
  · trivial
  · split
    · refine (exists_meets _).bind fun t' there ht' ↦ ?_
      cases there with
      | false => exact insert_conversation_meets _ ht'.1 ht'.2
      | true =>
        refine (require_member_meets _ _).bind fun _ isMember _ ↦ ?_
        cases isMember <;> trivial
    · refine meets_op_bind.2 ⟨allowed_of_not_rewrites rfl trivial, fun id _ ↦ ?_⟩
      exact insert_conversation_meets _ rfl rfl

theorem UpdateConversation_meets (auth_uid : String) (req : conversation.UpdateConversationReq) :
    (UpdateConversation cfg auth_uid req).Meets convContract t fun _ _ ↦ True := by
  refine (role_of_meets _ _).bind fun t' role hrole ↦ ?_
  split
  · trivial
  · next hallowed =>
    have hseen : req.conversation_id ∈ t'.seen := seen_of_allowed hallowed hrole
    refine meets_op_bind.2 ⟨allowed_of_not_rewrites rfl trivial, fun r hr ↦ ?_⟩
    cases r with
    | none => trivial
    | some c =>
      have hcid : c.conversation_id = req.conversation_id := hr
      refine meets_op_bind.2 ⟨allowed_of_not_rewrites rfl trivial, fun now _ ↦ ?_⟩
      refine meets_op_bind.2 ⟨allowed_of_not_rewrites rfl
        ⟨hcid ▸ hseen, c, rfl, ⟨rfl, rfl, rfl, rfl, rfl, .inl rfl⟩⟩, fun r _ ↦ ?_⟩
      cases r with
      | false => trivial
      | true =>
        exact ⟨allowed_of_not_rewrites rfl trivial, fun _ _ ↦
          ⟨allowed_of_not_rewrites rfl trivial, fun _ _ ↦ trivial⟩⟩

theorem DismissConversation_meets (auth_uid cid : String) :
    (DismissConversation auth_uid cid).Meets convContract t fun _ _ ↦ True := by
  refine (role_of_meets _ _).bind fun t' role hrole ↦ ?_
  split
  · trivial
  · next howner =>
    have hseen : cid ∈ t'.seen := seen_of_owner howner hrole
    have hupdate : (ConversationTable.update_status cid .DISMISSED).Meets convContract t'
        fun _ _ ↦ True := by
      refine meets_op_bind.2 ⟨allowed_of_not_rewrites rfl trivial, fun r hr ↦ ?_⟩
      cases r with
      | none => trivial
      | some c =>
        have hcid : c.conversation_id = cid := hr
        refine meets_op_bind.2 ⟨allowed_of_not_rewrites rfl trivial, fun now _ ↦ ?_⟩
        exact ⟨allowed_of_not_rewrites rfl
          ⟨hcid ▸ hseen, c, rfl, ⟨rfl, rfl, rfl, rfl, rfl, .inr rfl⟩⟩, fun _ _ ↦ trivial⟩
    refine hupdate.bind fun _ ok _ ↦ ?_
    cases ok with
    | false => trivial
    | true =>
      exact ⟨allowed_of_not_rewrites rfl trivial, fun _ _ ↦
        ⟨allowed_of_not_rewrites rfl trivial, fun _ _ ↦ trivial⟩⟩

theorem QuitConversation_meets (auth_uid cid : String) :
    (QuitConversation auth_uid cid).Meets convContract t fun _ _ ↦ True := by
  refine (role_of_meets _ _).bind fun _ role _ ↦ ?_
  split
  · trivial
  · refine (require_member_meets _ _).bind fun _ isMember _ ↦ ?_
    cases isMember with
    | false => trivial
    | true =>
      refine (set_quit_meets _ _).bind fun _ ok _ ↦ ?_
      cases ok with
      | false => trivial
      | true =>
        refine meets_op_bind.2 ⟨allowed_of_not_rewrites rfl trivial, fun _ _ ↦ ?_⟩
        exact (publish_members_meets cid).bind fun _ _ _ ↦ trivial

theorem add_member_meets (auth_uid cid uid : String) (now : ℤ) (hseen : cid ∈ t.seen) :
    (add_member auth_uid cid now uid).Meets convContract t fun _ _ ↦ True := by
  refine selectMember_meets ?_ fun m _ ↦ ?_
  · exact ⟨allowed_of_not_rewrites rfl ⟨hseen, rfl, rfl⟩, fun _ _ ↦ trivial⟩
  · show Prog.Meets _ (if m.is_quit then _ else _) _ _
    split
    · exact rejoin_meets _ _ _ _
    · trivial

theorem add_loop_meets (auth_uid cid : String) (now : ℤ) (uids : List String)
    (hseen : cid ∈ t.seen) :
    (add_loop auth_uid cid now uids).Meets convContract t fun _ _ ↦ True := by
  induction uids generalizing t with
  | nil => trivial
  | cons uid uids ih =>
    refine (seen_of_meets (add_member_meets auth_uid cid uid now hseen) hseen).bind
      fun t' ok ht' ↦ ?_
    exact (ih ht'.2).bind fun _ _ _ ↦ trivial

theorem AddMembers_meets (auth_uid : String) (req : conversation.MemberIdsReq) :
    (AddMembers auth_uid req).Meets convContract t fun _ _ ↦ True := by
  refine meets_op_bind.2 ⟨allowed_of_not_rewrites rfl trivial, fun r _ ↦ ?_⟩
  cases r with
  | none => trivial
  | some c =>
    show Prog.Meets _ (if c.conversation_type ≠ .GROUP then _ else _) _ _
    split
    · trivial
    · refine (role_of_meets _ _).bind fun t' role hrole ↦ ?_
      split
      · trivial
      · next hallowed =>
        have hseen : req.conversation_id ∈ t'.seen := seen_of_allowed hallowed hrole
        split
        · trivial
        · refine meets_op_bind.2 ⟨allowed_of_not_rewrites rfl trivial, fun now _ ↦ ?_⟩
          refine (add_loop_meets auth_uid _ now _ hseen).bind fun _ failed _ ↦ ?_
          refine meets_op_bind.2 ⟨allowed_of_not_rewrites rfl trivial, fun _ _ ↦ ?_⟩
          exact (publish_members_meets _).bind fun _ _ _ ↦ trivial

theorem remove_loop_meets (auth_uid cid : String) (uids : List String) (removed : ℕ) :
    (remove_loop auth_uid cid uids removed).Meets convContract t fun _ _ ↦ True := by
  induction uids generalizing t removed with
  | nil => trivial
  | cons uid uids ih =>
    unfold remove_loop
    split
    · trivial
    · refine selectMember_meets (ih removed) fun m _ ↦ ?_
      show Prog.Meets _ (if m.is_quit then _ else _) _ _
      split
      · exact ih removed
      · split
        · trivial
        · exact (set_quit_meets _ _).bind fun _ _ _ ↦ ih (removed + 1)

theorem RemoveMembers_meets (auth_uid : String) (req : conversation.MemberIdsReq) :
    (RemoveMembers auth_uid req).Meets convContract t fun _ _ ↦ True := by
  refine (role_of_meets _ _).bind fun _ role _ ↦ ?_
  split
  · trivial
  · refine (remove_loop_meets _ _ _ _).bind fun _ r _ ↦ ?_
    cases r with
    | error e => trivial
    | ok removed =>
      show Prog.Meets _ (if 0 < removed then _ else _) _ _
      split
      · refine meets_op_bind.2 ⟨allowed_of_not_rewrites rfl trivial, fun _ _ ↦ ?_⟩
        exact (publish_members_meets _).bind fun _ _ _ ↦ trivial
      · trivial

theorem TransferOwner_meets (auth_uid : String) (req : conversation.TransferOwnerReq) :
    (TransferOwner auth_uid req).Meets convContract t fun _ _ ↦ True := by
  refine (role_of_meets _ _).bind fun t' role hrole ↦ ?_
  split
  · trivial
  · next howner =>
    have hseen : req.conversation_id ∈ t'.seen := seen_of_owner howner hrole
    refine (seen_of_meets (require_member_meets _ _) hseen).bind fun _ isMember hseen' ↦ ?_
    cases isMember with
    | false => trivial
    | true =>
      refine meets_op_bind.2 ⟨allowed_of_not_rewrites rfl hseen'.2, fun ok _ ↦ ?_⟩
      cases ok <;> trivial

theorem ChangeMemberRole_meets (auth_uid : String) (req : conversation.ChangeMemberRoleReq) :
    (ChangeMemberRole auth_uid req).Meets convContract t fun _ _ ↦ True := by
  refine (role_of_meets _ _).bind fun _ role _ ↦ ?_
  split
  · trivial
  · split
    · trivial
    · refine selectMember_meets trivial fun target _ ↦ ?_
      show Prog.Meets _ (if target.is_quit then _ else _) _ _
      split
      · trivial
      · split
        · trivial
        · refine (update_role_meets _ _ ?_).bind fun _ _ _ ↦ trivial
          split <;> exact MemberRole.noConfusion

/-- A setter changes nothing that other RPCs are about. -/
theorem set_preference_meets (auth_uid cid : String)
    {set : ConversationMember → ConvM ConversationMember}
    (hset : ∀ m₀ : ConversationMember, ∀ t : ConvCall, t.held = some m₀ →
      (set m₀).Meets convContract t fun t' m ↦ t'.held = some m₀ ∧ m₀.Keeps m) :
    (set_preference auth_uid cid set).Meets convContract t fun _ _ ↦ True := by
  refine selectMember_meets trivial fun m₀ _ ↦ ?_
  show Prog.Meets _ (if m₀.is_quit then _ else _) _ _
  split
  · trivial
  · refine (hset m₀ _ rfl).bind fun t' m ht' ↦ ?_
    refine meets_op_bind.2 ⟨updateMember_allowed ht'.1 ht'.2, fun ok _ ↦ ?_⟩
    cases ok with
    | false => trivial
    | true => exact ⟨allowed_of_not_rewrites rfl trivial, fun _ _ ↦ trivial⟩

theorem SetMute_meets (auth_uid cid : String) (mute : Bool) :
    (SetMute auth_uid cid mute).Meets convContract t fun _ _ ↦ True :=
  set_preference_meets auth_uid cid fun _ _ h ↦ ⟨h, rfl, rfl, rfl, rfl, rfl⟩

theorem SetPin_meets (auth_uid cid : String) (pin : Bool) :
    (SetPin auth_uid cid pin).Meets convContract t fun _ _ ↦ True := by
  refine set_preference_meets auth_uid cid fun m₀ t h ↦ ?_
  cases pin with
  | false => exact ⟨h, rfl, rfl, rfl, rfl, rfl⟩
  | true => exact ⟨allowed_of_not_rewrites rfl trivial, fun _ _ ↦ ⟨h, rfl, rfl, rfl, rfl, rfl⟩⟩

theorem SetVisible_meets (auth_uid cid : String) (visible : Bool) :
    (SetVisible auth_uid cid visible).Meets convContract t fun _ _ ↦ True :=
  set_preference_meets auth_uid cid fun _ _ h ↦ ⟨h, rfl, rfl, rfl, rfl, rfl⟩

theorem SaveDraft_meets (auth_uid cid draft : String) :
    (SaveDraft auth_uid cid draft).Meets convContract t fun _ _ ↦ True := by
  refine (update_draft_meets _ _ _).bind fun _ ok _ ↦ ?_
  cases ok with
  | false => trivial
  | true =>
    have hself {t : ConvCall} (m : Option ConversationMember) :
        (op (selectConv cid) >>= fun c ↦ pure (.ok (.self (m.map fun m ↦
          fill_self_member_info_ m ((c.map (·.max_seq)).getD 0)))) :
          ConvM (Except ServiceError ConvRsp)).Meets convContract t fun _ _ ↦ True :=
      ⟨allowed_of_not_rewrites rfl trivial, fun _ _ ↦ trivial⟩
    exact selectMember_meets (hself none) fun m _ ↦ hself (some m)

theorem MarkRead_meets (auth_uid cid : String) (last_read_seq : ℕ) :
    (MarkRead auth_uid cid last_read_seq).Meets convContract t fun _ _ ↦ True := by
  refine (require_member_meets _ _).bind fun _ isMember _ ↦ ?_
  cases isMember with
  | false => trivial
  | true => exact ⟨allowed_of_not_rewrites rfl trivial, fun _ _ ↦ trivial⟩

theorem UpdateReadAck_meets (auth_uid cid : String) (seq_id : ℕ) :
    (UpdateReadAck auth_uid cid seq_id).Meets convContract t fun _ _ ↦ True := by
  unfold UpdateReadAck
  split
  · trivial
  · have hmember : (MessageService.require_member_ cid auth_uid).Meets convContract t
        fun _ _ ↦ True := by
      unfold MessageService.require_member_
      split
      · trivial
      · exact require_member_meets _ _
    refine hmember.bind fun _ isMember _ ↦ ?_
    cases isMember with
    | false => trivial
    | true =>
      refine meets_op_bind.2 ⟨allowed_of_not_rewrites rfl trivial, fun ok _ ↦ ?_⟩
      cases ok <;> trivial

/-- **Every request** keeps to the contract. -/
theorem handle_rpc_meets (auth_uid : String) (req : ConvReq) :
    (handle_rpc cfg auth_uid req).Meets convContract ⟨auth_uid, req, none, none, [], none⟩
      fun _ _ ↦ True := by
  have hbody : (req.body cfg auth_uid).Meets convContract ⟨auth_uid, req, none, none, [], none⟩
      fun _ _ ↦ True := by
    cases req with
    | create req => exact CreateConversation_meets auth_uid req
    | update req => exact UpdateConversation_meets auth_uid req
    | dismiss cid => exact DismissConversation_meets auth_uid cid
    | quit cid => exact QuitConversation_meets auth_uid cid
    | add req => exact AddMembers_meets auth_uid req
    | remove req => exact RemoveMembers_meets auth_uid req
    | transfer req => exact TransferOwner_meets auth_uid req
    | changeRole req => exact ChangeMemberRole_meets auth_uid req
    | mute cid b => exact SetMute_meets auth_uid cid b
    | pin cid b => exact SetPin_meets auth_uid cid b
    | visible cid b => exact SetVisible_meets auth_uid cid b
    | draft cid text => exact SaveDraft_meets auth_uid cid text
    | read cid seq => exact MarkRead_meets auth_uid cid seq
    | ack cid seq => exact UpdateReadAck_meets auth_uid cid seq
  exact hbody.bind fun _ _ _ ↦ ⟨allowed_of_not_rewrites rfl trivial, fun _ _ ↦ trivial⟩

end Meets

end ChatNow
