import ChatNow.Conversation.Rows

/-!
# A group has one owner

`ConvState.HasOneOwner` says of a conversation that exactly one of its active members has the role
`OWNER`, and that this is the conversation's `owner_id`.

`transfer_owner` changes the roles and `owner_id` in one transaction and under locks, but the other
methods read a member row without a lock and write all of it back, the role and `is_quit` included.
A snapshot from before a transfer puts the old owner back beside the new one; `QuitConversation`,
`RemoveMembers` and `ChangeMemberRole` can come upon a member who has become the owner after their
checks. `group_has_one_owner` is about the runs in which no such write makes or unmakes an active
owner (`ownersKept`).
-/

namespace ChatNow

open Prog ConvOp

/-- An active member with the role `OWNER`. -/
def ConversationMember.owns (m : ConversationMember) : Bool := m.role = .OWNER && !m.is_quit

/-- An active member of the conversation with the role `OWNER`. -/
def ConversationMember.ownsOf (cid : String) (m : ConversationMember) : Bool :=
  m.conversation_id = cid && m.owns

/-- Exactly one active member has the role `OWNER`, and it is the conversation's `owner_id`. -/
def ConvState.HasOneOwner (s : ConvState) (c : Conversation) : Prop :=
  ∃ m, s.members.rows.filter (·.ownsOf c.conversation_id) = [m] ∧ c.owner_id = some m.user_id

/-- The member whose role a transfer takes. -/
def ConvOp.deposes : ConvOp → Option (String × String)
  | transferOwner cid old_owner_id _ => some (cid, old_owner_id)
  | _ => none

/-- No row that is written back makes or unmakes an active owner, or changes the `owner_id` of a
conversation, and nobody who has quit hands a conversation over. -/
def ownersKept : Machine.Guard ConvOp ConvOp.Res ConvState ConvChoice ConvEv where
  onOp _ o ch s := ch.acts = true →
    (∀ m, o.rewrites = some m → ∀ m₀, s.members.find m.key = some m₀ → m.owns = m₀.owns) ∧
    (∀ c, o.restores = some c → ∀ c₀, s.convs.find c.conversation_id = some c₀ →
      c.owner_id = c₀.owner_id) ∧
    ∀ k, o.deposes = some k → ∀ m, s.members.find k = some m → m.role = .OWNER → m.is_quit = false
  onEv _ _ := True

instance (i : ℕ) (o : ConvOp) (ch : ConvChoice) (s : ConvState) :
    Decidable (ownersKept.onOp i o ch s) :=
  inferInstanceAs (Decidable (ch.acts = true → _ ∧ _ ∧ _))

instance (e : ConvEv) (p : ConvPool) : Decidable (ownersKept.onEv e p) := .isTrue trivial

/-! ### What the writes of a member leave of the owners -/

section Members

variable {members members' : Table ConversationMember.key} {cid : String}
  {m m₀ : ConversationMember}

/-- The active owners of the conversation are the same. -/
structure SameOwners (cid : String) (members members' : Table ConversationMember.key) : Prop where
  count : members'.count (·.ownsOf cid) = members.count (·.ownsOf cid)
  owns : ∀ uid m, members.find (cid, uid) = some m → m.owns = true →
    ∃ m', members'.find (cid, uid) = some m' ∧ m'.owns = true

theorem ownsOf_congr (hkey : m.key = m₀.key) (howns : m.owns = m₀.owns) :
    m.ownsOf cid = m₀.ownsOf cid := by
  have hcid : m.conversation_id = m₀.conversation_id := congrArg Prod.fst hkey
  rw [ConversationMember.ownsOf, ConversationMember.ownsOf, hcid, howns]

theorem ownsOf_of_ne (h : m.conversation_id ≠ cid) : m.ownsOf cid = false := by
  rw [ConversationMember.ownsOf, decide_eq_false h, Bool.false_and]

theorem SameOwners.refl (cid : String) (members : Table ConversationMember.key) :
    SameOwners cid members members :=
  ⟨rfl, fun _ m hm howns ↦ ⟨m, hm, howns⟩⟩

theorem SameOwners.trans {members'' : Table ConversationMember.key}
    (h : SameOwners cid members members') (h' : SameOwners cid members' members'') :
    SameOwners cid members members'' where
  count := h'.count.trans h.count
  owns uid m hm howns := by
    obtain ⟨m', hm', howns'⟩ := h.owns uid m hm howns
    exact h'.owns uid m' hm' howns'

/-- A row is written over one that is an owner just as much. -/
theorem SameOwners.of_write (hfind : members.find m.key = some m₀)
    (howns : m.ownsOf cid = m₀.ownsOf cid) : SameOwners cid members (members.write m) where
  count := by
    have hcount := Table.count_write hfind (·.ownsOf cid)
    rw [howns] at hcount
    omega
  owns uid m₁ hm₁ howns₁ := by
    rcases eq_or_ne m.key (cid, uid) with hkey | hne
    · refine ⟨m, by rw [← hkey]; exact Table.find_write_self hfind, ?_⟩
      rw [hkey, hm₁] at hfind
      obtain rfl := Option.some.inj hfind
      have hcid : m.conversation_id = cid := congrArg Prod.fst hkey
      have hkey₁ : m₁.key = (cid, uid) := Table.key_of_find hm₁
      have hcid₁ : m₁.conversation_id = cid := congrArg Prod.fst hkey₁
      rw [ConversationMember.ownsOf, ConversationMember.ownsOf, hcid, hcid₁, howns₁] at howns
      simpa using howns
    · refine ⟨m₁, ?_, howns₁⟩
      rw [Table.find_write_ne _ hne]
      exact hm₁

/-- The owner of another conversation changes. -/
theorem SameOwners.of_exchange {s : ConvState} {cid' old_owner_id new_owner_id : String}
    {m1 m2 : ConversationMember} (h1 : s.members.find (cid', old_owner_id) = some m1)
    (h2 : s.members.find (cid', new_owner_id) = some m2) (hne : cid' ≠ cid) :
    SameOwners cid s.members (s.exchange m1 m2) := by
  have hkey1 : m1.key = (cid', old_owner_id) := Table.key_of_find h1
  have hkey2 : m2.key = (cid', new_owner_id) := Table.key_of_find h2
  have hcid1 : m1.conversation_id = cid' := congrArg Prod.fst hkey1
  have hcid2 : m2.conversation_id = cid' := congrArg Prod.fst hkey2
  have hother {m : ConversationMember} (hm : m.conversation_id = cid') : m.ownsOf cid = false :=
    ownsOf_of_ne (hm ▸ hne)
  obtain ⟨m₀, hm₀⟩ : ∃ m₀, (s.members.write { m1 with role := .ADMIN }).find m2.key = some m₀ := by
    rw [Table.find_write, hkey2, h2]
    exact ⟨_, rfl⟩
  have hkey₀ : m₀.key = m2.key := Table.key_of_find hm₀
  have hcid₀ : m₀.conversation_id = cid' := (congrArg Prod.fst hkey₀).trans hcid2
  have hfind1 : s.members.find m1.key = some m1 := hkey1 ▸ h1
  have hfirst : SameOwners cid s.members (s.members.write { m1 with role := .ADMIN }) :=
    .of_write (m := { m1 with role := .ADMIN }) hfind1
      ((hother (m := { m1 with role := .ADMIN }) hcid1).trans (hother hcid1).symm)
  exact hfirst.trans (.of_write hm₀
    ((hother (m := { m2 with role := .OWNER }) hcid2).trans (hother hcid₀).symm))

/-- Rows that own nothing are new. -/
theorem SameOwners.of_insertAll {rows : List ConversationMember}
    (h : members.insertAll rows = some members') (hrows : ∀ m ∈ rows, m.ownsOf cid = false) :
    SameOwners cid members members' where
  count := by
    rw [Table.count_insertAll h, List.countP_eq_zero.2 fun m hm ↦ Bool.eq_false_iff.1 (hrows m hm)]
    rfl
  owns _ m₁ hm₁ howns₁ := ⟨m₁, Table.find_of_insertAll h hm₁, howns₁⟩

end Members

/-! ### The invariant -/

namespace ConvState

/-- What holds of a group whose members have been inserted. -/
def Owned (s : ConvState) (cid : String) : Prop :=
  ∀ c, s.convs.find cid = some c → c.conversation_type = .GROUP →
    s.members.count (·.ownsOf cid) = 1 ∧
      ∃ uid m, c.owner_id = some uid ∧ s.members.find (cid, uid) = some m ∧ m.owns = true

variable {s s' : ConvState} {cid : String}

/-- The conversation goes on with its owner. -/
theorem Owned.keep (h : s.Owned cid) (hmembers : SameOwners cid s.members s'.members)
    (hconv : ∀ c', s'.convs.find cid = some c' → ∃ c, s.convs.find cid = some c ∧
      c'.conversation_type = c.conversation_type ∧ c'.owner_id = c.owner_id) : s'.Owned cid := by
  intro c' hc' hgroup
  obtain ⟨c, hc, htype, howner⟩ := hconv c' hc'
  obtain ⟨hcount, uid, m, huid, hm, howns⟩ := h c hc (htype ▸ hgroup)
  obtain ⟨m', hm', howns'⟩ := hmembers.owns uid m hm howns
  exact ⟨hmembers.count.trans hcount, uid, m', howner.trans huid, hm', howns'⟩

/-- A row is written over one with the same owner. -/
theorem same_conv_of_write {cid' : String} {c c₀ : Conversation} (hcid : c.conversation_id = cid')
    (hfind : s.convs.find cid' = some c₀) (htype : c.conversation_type = c₀.conversation_type)
    (howner : c.owner_id = c₀.owner_id) :
    ∀ c', (s.convs.write c).find cid = some c' → ∃ c, s.convs.find cid = some c ∧
      c'.conversation_type = c.conversation_type ∧ c'.owner_id = c.owner_id := by
  subst hcid
  intro c' hc'
  rcases eq_or_ne c.conversation_id cid with rfl | hne
  · rw [Table.find_write_self hfind] at hc'
    obtain rfl := Option.some.inj hc'
    exact ⟨c₀, hfind, htype, howner⟩
  · rw [Table.find_write_ne _ hne] at hc'
    exact ⟨c', hc', rfl, rfl⟩

/-- The owner hands the conversation over to an active member. -/
theorem Owned.transfer {old_owner_id new_owner_id : String} {m1 m2 : ConversationMember}
    {c : Conversation} (h : s.Owned cid) (h1 : s.members.find (cid, old_owner_id) = some m1)
    (h2 : s.members.find (cid, new_owner_id) = some m2) (hquit : m2.is_quit = false)
    (howns : m1.owns = true) (hc : s.convs.find cid = some c)
    (hmembers : s'.members = s.exchange m1 m2)
    (hconvs : s'.convs = s.convs.write { c with owner_id := some new_owner_id }) :
    s'.Owned cid := by
  intro c' hc' hgroup
  have hkey1 : m1.key = (cid, old_owner_id) := Table.key_of_find h1
  have hkey2 : m2.key = (cid, new_owner_id) := Table.key_of_find h2
  have hcid1 : m1.conversation_id = cid := congrArg Prod.fst hkey1
  have hcid2 : m2.conversation_id = cid := congrArg Prod.fst hkey2
  have hcid : c.conversation_id = cid := Table.key_of_find hc
  -- the conversation was a group, so its one owner was the one who hands it over
  obtain rfl : c' = { c with owner_id := some new_owner_id } := by
    rw [hconvs, ← hcid] at hc'
    have hwritten := Table.find_write_self
      (r := { c with owner_id := some new_owner_id }) (t := s.convs) (hcid.symm ▸ hc)
    exact (Option.some.inj (hwritten.symm.trans hc')).symm
  obtain ⟨hone, -⟩ := h c hc hgroup
  have hzero : (s.members.write { m1 with role := .ADMIN }).count (·.ownsOf cid) = 0 := by
    have hcount := Table.count_write (r := { m1 with role := .ADMIN }) (hkey1 ▸ h1) (·.ownsOf cid)
    have hold : m1.ownsOf cid = true := by
      rw [ConversationMember.ownsOf, howns, decide_eq_true hcid1, Bool.and_self]
    have hnew : ({ m1 with role := .ADMIN } : ConversationMember).ownsOf cid = false := by
      simp [ConversationMember.ownsOf, ConversationMember.owns]
    rw [hold, hnew, hone] at hcount
    simpa using hcount
  obtain ⟨m₀, hm₀⟩ : ∃ m₀, (s.members.write { m1 with role := .ADMIN }).find (cid, new_owner_id) =
      some m₀ := by
    rw [Table.find_write, h2]
    exact ⟨_, rfl⟩
  have hnone : m₀.ownsOf cid = false := Table.count_eq_zero _ |>.1 hzero _ _ hm₀
  have hnew : ({ m2 with role := .OWNER } : ConversationMember).ownsOf cid = true := by
    simp [ConversationMember.ownsOf, ConversationMember.owns, hcid2, hquit]
  have hcount := Table.count_write (r := { m2 with role := .OWNER }) (hkey2 ▸ hm₀) (·.ownsOf cid)
  refine ⟨?_, new_owner_id, { m2 with role := .OWNER }, rfl, ?_, ?_⟩
  · rw [hnone, hnew, hzero] at hcount
    rw [hmembers, exchange]
    simpa using hcount
  · have hwritten : (s.exchange m1 m2).find m2.key = some { m2 with role := .OWNER } :=
      Table.find_write_self (hkey2 ▸ hm₀)
    rwa [hmembers, ← hkey2]
  · simp [ConversationMember.owns, hquit]

/-- **What the invariant says.** -/
theorem Owned.hasOneOwner {c : Conversation} (h : s.Owned cid) (hc : s.convs.find cid = some c)
    (hgroup : c.conversation_type = .GROUP) : s.HasOneOwner c := by
  obtain rfl : c.conversation_id = cid := Table.key_of_find hc
  obtain ⟨hcount, uid, m, huid, hm, howns⟩ := h c hc hgroup
  have hkey : m.key = (c.conversation_id, uid) := Table.key_of_find hm
  have hlength : (s.members.rows.filter (·.ownsOf c.conversation_id)).length = 1 := by
    rw [← List.countP_eq_length_filter]
    exact hcount
  obtain ⟨m', hm'⟩ := List.length_eq_one_iff.1 hlength
  have hmem : m ∈ s.members.rows.filter (·.ownsOf c.conversation_id) := by
    refine List.mem_filter.2 ⟨Table.mem_of_find hm, ?_⟩
    have hcid : m.conversation_id = c.conversation_id := congrArg Prod.fst hkey
    rw [ConversationMember.ownsOf, howns, decide_eq_true hcid, Bool.and_self]
  rw [hm'] at hmem
  obtain rfl := List.mem_singleton.1 hmem
  have huser : m.user_id = uid := congrArg Prod.snd hkey
  exact ⟨m, hm', huser ▸ huid⟩

end ConvState

/-! ### Every call keeps it -/

section Steps

variable {ts : List ConvCall} {s s' : ConvState} {i : ℕ} {t : ConvCall} {o : ConvOp}
  {ch : ConvChoice} {cid : String}

theorem conversation_id_of_ownsOf (m : ConversationMember) (h : m.ownsOf cid = true) :
    m.conversation_id = cid := by
  rw [ConversationMember.ownsOf, Bool.and_eq_true] at h
  exact of_decide_eq_true h.1

/-- A row of a new conversation that is not that of its creator owns nothing. -/
theorem ownsOf_of_normal {m : ConversationMember} (hrole : m.role = .NORMAL) :
    m.ownsOf cid = false := by
  have howns : m.owns = false := by
    rw [ConversationMember.owns, hrole]
    rfl
  rw [ConversationMember.ownsOf, howns, Bool.and_false]

/-- The members of a new group are inserted. -/
theorem owned_of_new {auth_uid : String} {req : conversation.CreateConversationReq} {now now' : ℤ}
    {c : Conversation} {members : Table ConversationMember.key} (h : ConvInv ts s)
    (hnew : c.conversation_id ∉ s.created)
    (hrow : c = { new_conversation auth_uid cid req with create_time := now, update_time := now })
    (hfind : s'.convs.find c.conversation_id = some c)
    (hinsert : s.members.insertAll (new_members auth_uid c.conversation_id now' req) = some members)
    (hmembers : s'.members = members) : s'.Owned c.conversation_id := by
  intro c' hc' hgroup
  obtain rfl := Option.some.inj (hfind.symm.trans hc')
  have htype : req.type = .GROUP := by
    rw [hrow] at hgroup
    exact group_of_entity_type hgroup
  have hrole : owner_role req.type = .OWNER := if_pos htype
  have howner : c.owner_id = some auth_uid := by
    rw [hrow]
    exact if_pos htype
  have hzero := h.count_uncreated hnew (P := (·.ownsOf c.conversation_id)) conversation_id_of_ownsOf
  have hothers : (((req.member_ids.filter (· ≠ auth_uid)).map fun mid ↦
      ({ conversation_id := c.conversation_id, user_id := mid, join_time := now' } :
        ConversationMember)).countP (·.ownsOf c.conversation_id)) = 0 := by
    refine List.countP_eq_zero.2 fun m hm ↦ Bool.eq_false_iff.1 ?_
    obtain ⟨mid, -, rfl⟩ := List.mem_map.1 hm
    exact ownsOf_of_normal rfl
  refine ⟨?_, auth_uid,
    { conversation_id := c.conversation_id, user_id := auth_uid, role := owner_role req.type,
      join_time := now' }, howner, ?_, ?_⟩
  · rw [hmembers, Table.count_insertAll hinsert, hzero, new_members, List.countP_cons, hothers]
    simp [ConversationMember.ownsOf, ConversationMember.owns, hrole]
  · rw [hmembers]
    exact ((Table.find_insertAll hinsert).1 _ List.mem_cons_self).2
  · simp [ConversationMember.owns, hrole]

/-- **Every call keeps the owners**, under the assumption. -/
theorem owned_call (h : ConvInv ts s) (hI : ∀ cid ∈ s.created, s.Owned cid) (hi : ts[i]? = some t)
    (ha : t.allowed o) (hG : ownersKept.onOp i o ch s) (hmove : ConvMove s ch o s')
    (hcid : cid ∈ s'.created) : s'.Owned cid := by
  have hsame {c' : Conversation} (hc' : s.convs.find cid = some c') :
      ∃ c, s.convs.find cid = some c ∧ c'.conversation_type = c.conversation_type ∧
        c'.owner_id = c.owner_id := ⟨c', hc', rfl, rfl⟩
  have hcreated := ConvInv.created_of_move ha hmove hcid
  cases hmove with
  | stay hconvs hmembers hstay =>
    rw [hstay] at hcid
    refine (hI cid hcid).keep (hmembers ▸ .refl cid _) fun c' hc' ↦ hsame ?_
    rwa [hconvs] at hc'
  | found hinsert =>
    exact (hI cid hcid).keep (.refl cid _) fun c' hc' ↦ hsame (h.conv_of_insert hcid hinsert hc')
  | @restore c c₀ hacts hfind =>
    obtain ⟨-, -, c₁, hc₁, hkeeps⟩ := ha
    obtain ⟨c₂, hc₂, htype⟩ := h.read i t hi c₁ hc₁
    rw [← hkeeps.conversation_id, hfind] at hc₂
    obtain rfl := Option.some.inj hc₂
    exact (hI cid hcid).keep (.refl cid _) (ConvState.same_conv_of_write rfl hfind
      (hkeeps.conversation_type.trans htype.symm) ((hG hacts).2.1 c rfl c₀ hfind))
  | @people rows members hinsert =>
    obtain ⟨-, req, c, now, hreq, hc, rfl⟩ := ha
    obtain ⟨hnew, hfind, req', cid', now', hreq', hrow⟩ := h.pending i t hi c hc
    obtain rfl : req = req' := ConvReq.create.inj (hreq.symm.trans hreq')
    rcases hcreated with hold | ⟨-, c', hc', rfl⟩
    · refine (hI cid hold).keep (.of_insertAll hinsert fun m hm ↦ ownsOf_of_ne fun heq ↦ hnew ?_)
        fun c' hc' ↦ hsame hc'
      rwa [← conversation_id_of_mem_new_members hm, heq]
    · obtain rfl := Option.some.inj (hc.symm.trans hc')
      exact owned_of_new h hnew hrow hfind hinsert rfl
  | @join m members c hinsert hc =>
    refine (hI cid hcid).keep ?_ (ConvState.same_conv_of_write (Table.key_of_find hc :) hc rfl rfl)
    have hall : s.members.insertAll [m] = some members := by
      rw [Table.insertAll, hinsert]
      rfl
    refine .of_insertAll hall fun m' hm' ↦ ?_
    obtain rfl := List.mem_singleton.1 hm'
    exact ownsOf_of_normal ha.2.2.1
  | @rewrite _ m m₀ hacts ho hm _ =>
    refine (hI cid hcid).keep (.of_write hm (ownsOf_congr ?_ ((hG hacts).1 m ho m₀ hm)))
      fun c' hc' ↦ hsame hc'
    exact (Table.key_of_find hm).symm
  | @recount _ m m₀ c hacts ho hm _ hc =>
    refine (hI cid hcid).keep (.of_write hm (ownsOf_congr ?_ ((hG hacts).1 m ho m₀ hm)))
      (ConvState.same_conv_of_write (Table.key_of_find hc :) hc rfl rfl)
    exact (Table.key_of_find hm).symm
  | @transfer cid' old_owner_id new_owner_id m1 m2 c hacts h1 h2 hquit hrole hc =>
    have hactive := (hG hacts).2.2 _ rfl m1 h1 hrole
    have howns : m1.owns = true := by
      rw [ConversationMember.owns, hrole, hactive]
      rfl
    rcases eq_or_ne cid' cid with rfl | hne
    · exact (hI cid' hcid).transfer h1 h2 hquit howns hc rfl rfl
    · have hcid' : c.conversation_id = cid' := Table.key_of_find hc
      have hfind : (s.convs.write { c with owner_id := some new_owner_id }).find cid =
          s.convs.find cid := Table.find_write_ne _ (hcid'.trans_ne hne)
      exact (hI cid hcid).keep (.of_exchange h1 h2 hne) fun c' hc' ↦ hsame (hfind.symm.trans hc')
  | half h1 h2 hc =>
    obtain ⟨c, hc'⟩ := h.backed _ (h.people _ _ h1)
    rw [hc] at hc'
    cases hc'
  | @advance _ m₀ m hfind hadv _ =>
    have howns : m.owns = m₀.owns := by
      rw [ConversationMember.owns, hadv.role, hadv.is_quit, ConversationMember.owns]
    exact (hI cid hcid).keep (.of_write (hadv.key ▸ hfind) (ownsOf_congr hadv.key howns))
      fun c' hc' ↦ hsame hc'

end Steps

/-! ### Over a run -/

variable {cfg : ConversationServiceConfig}

/-- Alice creates a group with bob. -/
def aliceCreates : List (Machine.Label ConvChoice ConvEv) :=
  [.event (.arrive "alice" (.create { type := .GROUP, member_ids := ["bob"] })),
    .call 0 { uuid := "1" }] ++ List.replicate 7 (.call 0 {})

/-- Alice mutes the group and hands it over. What the first has read is written back after the
second has ended (`late`), or before it begins. -/
def aliceMutes (late : Bool) : List (Machine.Label ConvChoice ConvEv) :=
  [.event (.arrive "alice" (.mute "g_1" true)), .call 1 {}] ++
  (if late then [] else [.call 1 {}]) ++
  [.event (.arrive "alice" (.transfer { conversation_id := "g_1", new_owner_id := "bob" }))] ++
  List.replicate 4 (.call 2 {}) ++ (if late then [.call 1 {}] else [])

end ChatNow
