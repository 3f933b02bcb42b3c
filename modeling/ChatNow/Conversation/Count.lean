import ChatNow.Conversation.Rows

/-!
# The count of the members

`ConvState.IsCounted` says of a conversation that its `member_count` is the number of its active
members.

The count goes up and down under a lock of the conversation row, but what it follows is the row that
a thread has read before: of two calls that have read a member as active, both take one from the
count. `UpdateConversation` writes back the count that it has read, and `CreateConversation` counts
the members of the request, the caller among them, while it inserts a row for the caller only once.
`members_are_counted` is about the runs in which none of this happens (`countKept`).
-/

namespace ChatNow

open Prog ConvOp

/-- An active member of the conversation. -/
def ConversationMember.activeOf (cid : String) (m : ConversationMember) : Bool :=
  m.conversation_id = cid && !m.is_quit

/-- `member_count` is the number of the active members. -/
def ConvState.IsCounted (s : ConvState) (c : Conversation) : Prop :=
  c.member_count = s.members.count (·.activeOf c.conversation_id)

/-- Nobody creates a conversation with themselves as one of the others. -/
def ConvReq.Others (auth_uid : String) : ConvReq → Prop
  | .create req => auth_uid ∉ req.member_ids
  | _ => True

instance (auth_uid : String) (req : ConvReq) : Decidable (req.Others auth_uid) :=
  match req with
  | .create req => inferInstanceAs (Decidable (auth_uid ∉ req.member_ids))
  | .update _ | .dismiss _ | .quit _ | .add _ | .remove _ | .transfer _ | .changeRole _
  | .mute _ _ | .pin _ _ | .visible _ _ | .draft _ _ | .read _ _ | .ack _ _ => .isTrue trivial

/-- A row that is written back with a change of the count makes a member active or inactive, one
without does not, and a conversation is written back with the count that it has. -/
def countKept : Machine.Guard ConvOp ConvOp.Res ConvState ConvChoice ConvEv where
  onOp _ o ch s := ch.acts = true →
    (∀ m, o.rewrites = some m → ∀ m₀, s.members.find m.key = some m₀ →
      (o.delta = 0 ↔ m.is_quit = m₀.is_quit)) ∧
    ∀ c, o.restores = some c → ∀ c₀, s.convs.find c.conversation_id = some c₀ →
      c.member_count = c₀.member_count
  onEv e _ :=
    match e with
    | .arrive auth_uid req => req.Others auth_uid
    | .crash _ => True

instance (i : ℕ) (o : ConvOp) (ch : ConvChoice) (s : ConvState) :
    Decidable (countKept.onOp i o ch s) :=
  inferInstanceAs (Decidable (ch.acts = true → _ ∧ _))

instance (e : ConvEv) (p : ConvPool) : Decidable (countKept.onEv e p) :=
  match e with
  | .arrive auth_uid req => inferInstanceAs (Decidable (req.Others auth_uid))
  | .crash _ => .isTrue trivial

/-! ### The invariant -/

namespace ConvState

/-- What holds of a conversation whose members have been inserted. -/
def Counted (s : ConvState) (cid : String) : Prop :=
  ∀ c, s.convs.find cid = some c → c.member_count = s.members.count (·.activeOf cid)

variable {s s' : ConvState} {cid : String}

/-- The conversation goes on with its count. -/
theorem Counted.keep (h : s.Counted cid)
    (hcount : s'.members.count (·.activeOf cid) = s.members.count (·.activeOf cid))
    (hconv : ∀ c', s'.convs.find cid = some c' →
      ∃ c, s.convs.find cid = some c ∧ c'.member_count = c.member_count) : s'.Counted cid := by
  intro c' hc'
  obtain ⟨c, hc, heq⟩ := hconv c' hc'
  rw [heq, hcount]
  exact h c hc

/-- A row is written over one with the same count. -/
theorem same_count_of_write {cid' : String} {c c₀ : Conversation} (hcid : c.conversation_id = cid')
    (hfind : s.convs.find cid' = some c₀) (hcount : c.member_count = c₀.member_count) :
    ∀ c', (s.convs.write c).find cid = some c' →
      ∃ c, s.convs.find cid = some c ∧ c'.member_count = c.member_count := by
  subst hcid
  intro c' hc'
  rcases eq_or_ne c.conversation_id cid with rfl | hne
  · rw [Table.find_write_self hfind] at hc'
    obtain rfl := Option.some.inj hc'
    exact ⟨c₀, hfind, hcount⟩
  · rw [Table.find_write_ne _ hne] at hc'
    exact ⟨c', hc', rfl⟩

/-- The count of a conversation changes by what its members change by. -/
theorem Counted.recount {cid' : String} {c : Conversation} {delta now : ℤ} (h : s.Counted cid)
    (hc : s.convs.find cid' = some c) (hconvs : s'.convs = s.convs.write (c.counted delta now))
    (hcount : (s'.members.count (·.activeOf cid) : ℤ) =
      s.members.count (·.activeOf cid) + if cid' = cid then delta else 0) : s'.Counted cid := by
  intro c' hc'
  have hcid : c.conversation_id = cid' := Table.key_of_find hc
  rcases eq_or_ne cid' cid with rfl | hne
  · have hwritten : (s.convs.write (c.counted delta now)).find c.conversation_id =
        some (c.counted delta now) := Table.find_write_self (hcid ▸ hc)
    rw [hcid, ← hconvs, hc'] at hwritten
    obtain rfl := Option.some.inj hwritten
    have hold := h c hc
    rw [if_pos rfl] at hcount
    show max (c.member_count + delta) 0 = _
    omega
  · have hother : s'.convs.find cid = s.convs.find cid := by
      rw [hconvs]
      exact Table.find_write_ne _ (hcid.trans_ne hne)
    rw [if_neg hne, Int.add_zero] at hcount
    rw [hcount]
    exact h c' (hother.symm.trans hc')

end ConvState

section Members

variable {members members' : Table ConversationMember.key} {cid : String}
  {m m₀ : ConversationMember}

theorem activeOf_of_ne (h : m.conversation_id ≠ cid) : m.activeOf cid = false := by
  rw [ConversationMember.activeOf, decide_eq_false h, Bool.false_and]

theorem conversation_id_of_activeOf (m : ConversationMember) (h : m.activeOf cid = true) :
    m.conversation_id = cid := by
  rw [ConversationMember.activeOf, Bool.and_eq_true] at h
  exact of_decide_eq_true h.1

/-- A row is written over one that is active just as much. -/
theorem active_count_of_write (hfind : members.find m.key = some m₀)
    (hquit : m.is_quit = m₀.is_quit) :
    (members.write m).count (·.activeOf cid) = members.count (·.activeOf cid) := by
  have hkey : m₀.key = m.key := Table.key_of_find hfind
  have hcid : m₀.conversation_id = m.conversation_id := congrArg Prod.fst hkey
  have hactive : m.activeOf cid = m₀.activeOf cid := by
    rw [ConversationMember.activeOf, ConversationMember.activeOf, hcid, hquit]
  have hcount := Table.count_write hfind (·.activeOf cid)
  rw [hactive] at hcount
  omega

/-- A transfer makes nobody active or inactive. -/
theorem active_count_of_exchange {s : ConvState} {cid' old_owner_id new_owner_id : String}
    {m1 m2 : ConversationMember} (h1 : s.members.find (cid', old_owner_id) = some m1)
    (h2 : s.members.find (cid', new_owner_id) = some m2) :
    (s.exchange m1 m2).count (·.activeOf cid) = s.members.count (·.activeOf cid) := by
  have hkey1 : m1.key = (cid', old_owner_id) := Table.key_of_find h1
  have hkey2 : m2.key = (cid', new_owner_id) := Table.key_of_find h2
  obtain ⟨m₀, hm₀, hquit⟩ : ∃ m₀, (s.members.write { m1 with role := .ADMIN }).find m2.key =
      some m₀ ∧ m2.is_quit = m₀.is_quit := by
    rw [Table.find_write, hkey2, h2]
    refine ⟨_, rfl, ?_⟩
    split
    · next hkey =>
      have hkey' : m1.key = (cid', new_owner_id) := hkey
      rw [← hkey1, hkey', h2] at h1
      rw [Option.some.inj h1]
    · rfl
  have hfind1 : s.members.find m1.key = some m1 := hkey1 ▸ h1
  exact (active_count_of_write (m := { m2 with role := .OWNER }) hm₀ hquit).trans
    (active_count_of_write (m := { m1 with role := .ADMIN }) hfind1 rfl)

end Members

/-- All members of a new conversation are active. -/
theorem countP_new_members (auth_uid cid : String) (now : ℤ)
    (req : conversation.CreateConversationReq) :
    (new_members auth_uid cid now req).countP (·.activeOf cid) =
      (new_members auth_uid cid now req).length := by
  refine List.countP_eq_length.2 fun m hm ↦ ?_
  have hactive : m.is_quit = false := by
    rcases List.mem_cons.1 hm with rfl | hm
    · rfl
    · obtain ⟨mid, -, rfl⟩ := List.mem_map.1 hm
      rfl
  rw [ConversationMember.activeOf, conversation_id_of_mem_new_members hm, hactive]
  simp

/-! ### Every call keeps it -/

section Steps

variable {ts : List ConvCall} {s s' : ConvState} {i : ℕ} {t : ConvCall} {o : ConvOp}
  {ch : ConvChoice} {cid : String}

/-- The members of a new conversation are inserted. -/
theorem counted_of_new {auth_uid : String} {req : conversation.CreateConversationReq} {now now' : ℤ}
    {c : Conversation} {members : Table ConversationMember.key} (h : ConvInv ts s)
    (hothers : auth_uid ∉ req.member_ids) (hnew : c.conversation_id ∉ s.created)
    (hrow : c = { new_conversation auth_uid cid req with create_time := now, update_time := now })
    (hfind : s'.convs.find c.conversation_id = some c)
    (hinsert : s.members.insertAll (new_members auth_uid c.conversation_id now' req) = some members)
    (hmembers : s'.members = members) : s'.Counted c.conversation_id := by
  intro c' hc'
  obtain rfl := Option.some.inj (hfind.symm.trans hc')
  have hcount : c.member_count = 1 + req.member_ids.length := by rw [hrow]; rfl
  have hzero := h.count_uncreated hnew (P := (·.activeOf c.conversation_id))
    conversation_id_of_activeOf
  have hlength : (new_members auth_uid c.conversation_id now' req).length =
      req.member_ids.length + 1 := by
    have hfilter : req.member_ids.filter (· ≠ auth_uid) = req.member_ids :=
      List.filter_eq_self.2 fun mid hmid ↦ decide_eq_true fun heq ↦ hothers (heq ▸ hmid)
    rw [new_members, hfilter, List.length_cons, List.length_map]
  rw [hmembers, Table.count_insertAll hinsert, hzero, countP_new_members, hlength, hcount]
  push_cast
  omega

/-- What a counted write changes of the number of the active members. -/
theorem active_count_of_recount {m m₀ held : ConversationMember}
    (hfind : s.members.find m.key = some m₀) (hchanges : o.Changes held m) (hdelta : o.delta ≠ 0)
    (hquit : o.delta = 0 ↔ m.is_quit = m₀.is_quit) :
    ((s.members.write m).count (·.activeOf cid) : ℤ) =
      s.members.count (·.activeOf cid) + if m.conversation_id = cid then o.delta else 0 := by
  have hkey : m₀.key = m.key := Table.key_of_find hfind
  have hcid : m₀.conversation_id = m.conversation_id := congrArg Prod.fst hkey
  have hcount := Table.count_write hfind (·.activeOf cid)
  have hne : m₀.is_quit ≠ m.is_quit := fun heq ↦ hdelta (hquit.2 heq.symm)
  by_cases hm : m.conversation_id = cid
  · rw [if_pos hm]
    rw [ConversationMember.activeOf, ConversationMember.activeOf, hcid, decide_eq_true hm,
      Bool.true_and, Bool.true_and] at hcount
    rcases hchanges.is_quit with ⟨hzero, -⟩ | ⟨hquits, -, hm'⟩ | ⟨hback, hm'⟩
    · exact absurd hzero hdelta
    · rw [hm'] at hne hcount
      rw [Bool.eq_false_iff.2 hne] at hcount
      rw [hquits]
      simp only [Bool.not_false, Bool.not_true, if_true, Bool.false_eq_true, if_false] at hcount
      omega
    · rw [hm'] at hne hcount
      rw [Bool.eq_not_of_ne hne] at hcount
      rw [hback]
      simp only [Bool.not_false, Bool.not_true, if_true, Bool.false_eq_true, if_false] at hcount
      omega
  · rw [activeOf_of_ne hm, activeOf_of_ne (hcid.trans_ne hm)] at hcount
    rw [if_neg hm]
    omega

/-- **Every call keeps the counts**, under the assumption. -/
theorem counted_call (h : ConvInv ts s) (hI : ∀ cid ∈ s.created, s.Counted cid)
    (hothers : t.req.Others t.auth_uid) (hi : ts[i]? = some t) (ha : t.allowed o)
    (hG : countKept.onOp i o ch s) (hmove : ConvMove s ch o s') (hcid : cid ∈ s'.created) :
    s'.Counted cid := by
  have hsame {c' : Conversation} (hc' : s.convs.find cid = some c') :
      ∃ c, s.convs.find cid = some c ∧ c'.member_count = c.member_count := ⟨c', hc', rfl⟩
  have hcreated := ConvInv.created_of_move ha hmove hcid
  cases hmove with
  | stay hconvs hmembers hstay =>
    rw [hstay] at hcid
    refine (hI cid hcid).keep (by rw [hmembers]) fun c' hc' ↦ hsame ?_
    rwa [hconvs] at hc'
  | found hinsert =>
    exact (hI cid hcid).keep rfl fun c' hc' ↦ hsame (h.conv_of_insert hcid hinsert hc')
  | @restore c c₀ hacts hfind =>
    exact (hI cid hcid).keep rfl
      (ConvState.same_count_of_write rfl hfind ((hG hacts).2 c rfl c₀ hfind))
  | @people rows members hinsert =>
    obtain ⟨-, req, c, now, hreq, hc, rfl⟩ := ha
    obtain ⟨hnew, hfind, req', cid', now', hreq', hrow⟩ := h.pending i t hi c hc
    obtain rfl : req = req' := ConvReq.create.inj (hreq.symm.trans hreq')
    rcases hcreated with hold | ⟨-, c', hc', rfl⟩
    · refine (hI cid hold).keep ?_ fun c' hc' ↦ hsame hc'
      show members.count _ = _
      rw [Table.count_insertAll hinsert, List.countP_eq_zero.2 fun m hm ↦ ?_]
      · rfl
      · refine Bool.eq_false_iff.1 (activeOf_of_ne fun heq ↦ hnew ?_)
        rwa [← conversation_id_of_mem_new_members hm, heq]
    · obtain rfl := Option.some.inj (hc.symm.trans hc')
      rw [hreq] at hothers
      exact counted_of_new h hothers hnew hrow hfind hinsert rfl
  | @join m members c hinsert hc =>
    refine (hI cid hcid).recount hc rfl ?_
    show (members.count _ : ℤ) = _
    rw [Table.count_insert hinsert]
    by_cases hm : m.conversation_id = cid
    · have hactive : m.activeOf cid = true := by
        rw [ConversationMember.activeOf, ha.2.2.2, decide_eq_true hm]
        rfl
      rw [if_pos hactive, if_pos hm]
      rfl
    · rw [activeOf_of_ne hm, if_neg hm]
      rfl
  | @rewrite _ m m₀ hacts ho hm hdelta =>
    exact (hI cid hcid).keep (active_count_of_write hm (((hG hacts).1 m ho m₀ hm).1 hdelta))
      fun c' hc' ↦ hsame hc'
  | @recount _ m m₀ c hacts ho hm hdelta hc =>
    obtain ⟨held, -, hchanges⟩ := ha.1 m ho
    exact (hI cid hcid).recount hc rfl
      (active_count_of_recount hm hchanges hdelta ((hG hacts).1 m ho m₀ hm))
  | transfer _ h1 h2 _ _ hc =>
    exact (hI cid hcid).keep (active_count_of_exchange h1 h2)
      (ConvState.same_count_of_write (Table.key_of_find hc :) hc rfl)
  | half h1 _ hc =>
    obtain ⟨c, hc'⟩ := h.backed _ (h.people _ _ h1)
    rw [hc] at hc'
    cases hc'
  | advance hfind hadv _ =>
    exact (hI cid hcid).keep (active_count_of_write (hadv.key ▸ hfind) hadv.is_quit)
      fun c' hc' ↦ hsame hc'

end Steps

/-! ### Over a run -/

variable {cfg : ConversationServiceConfig}

/-- What holds of the requests and the counts. -/
def AllCounted (ts : List ConvCall) (s : ConvState) : Prop :=
  (∀ (i : ℕ) t, ts[i]? = some t → t.req.Others t.auth_uid) ∧ ∀ cid ∈ s.created, s.Counted cid

/-- **The members are counted.** In every run in which the rows that are written back fit the rows
that they are written over, and nobody names themselves when they create a conversation, every
conversation whose members have been inserted has a row, whose `member_count` is the number of its
active members. -/
theorem members_are_counted {p : ConvPool}
    (hr : (conversationService cfg).Reach countKept ⟨[], {}⟩ p) (cid : String)
    (hcreated : cid ∈ p.shared.created) :
    ∃ c, p.shared.convs.find cid = some c ∧ p.shared.IsCounted c := by
  obtain ⟨ts, h, ⟨-, hcounted⟩, -⟩ : ∃ ts, ConvInv ts p.shared ∧ AllCounted ts p.shared ∧
      p.Meets convContract (fun _ ↦ True) ts := by
    refine conv_invariant hr ⟨fun _ _ hi ↦ absurd hi.symm (Option.some_ne_none _),
      fun cid hcid ↦ absurd hcid List.not_mem_nil⟩ ?_ ?_
    · intro ts s i t o ch r s' h hI hi ha hG _ hmove
      refine ⟨fun j u hu ↦ ?_, fun cid hcid ↦ counted_call h hI.2 (hI.1 i t hi) hi ha hG hmove hcid⟩
      rcases Pool.getElem?_set_cases hu with ⟨-, rfl⟩ | ⟨-, hold⟩
      · rw [t.next_req, t.next_auth_uid]
        exact hI.1 i t hi
      · exact hI.1 j u hold
    · intro ts auth_uid req p hI hothers
      refine ⟨fun j u hu ↦ ?_, hI.2⟩
      rcases Pool.getElem?_append_cases hu with ⟨-, rfl⟩ | ⟨-, hold⟩
      · exact hothers
      · exact hI.1 j u hold
  obtain ⟨c, hc⟩ := h.backed cid hcreated
  obtain rfl : c.conversation_id = cid := Table.key_of_find hc
  exact ⟨c, hc, hcounted _ hcreated c hc⟩

/-- Alice creates a group. -/
def aliceGathers (member_ids : List String) : List (Machine.Label ConvChoice ConvEv) :=
  [.event (.arrive "alice" (.create { type := .GROUP, member_ids })), .call 0 { uuid := "1" }] ++
  List.replicate 7 (.call 0 {})

/-- Bob is one of the others, and quits. -/
theorem members_are_counted_bob :
    ∃ p, (conversationService ⟨""⟩).Reach countKept ⟨[], {}⟩ p ∧ "g_1" ∈ p.shared.created ∧
      (p.shared.members.rows.map fun m ↦ (m.user_id, m.is_quit)) =
        [("alice", false), ("bob", true), ("carol", false)] ∧
      ∃ c, p.shared.convs.find "g_1" = some c ∧ p.shared.IsCounted c := by
  obtain ⟨p, hp, hcreated, hrows⟩ := Machine.exists_of_run (conversationService ⟨""⟩) countKept
    ⟨[], {}⟩ (aliceGathers ["bob", "carol"] ++
      .event (.arrive "bob" (.quit "g_1")) :: List.replicate 5 (.call 1 {}))
    (fun p ↦ "g_1" ∈ p.shared.created ∧
      (p.shared.members.rows.map fun m ↦ (m.user_id, m.is_quit)) =
        [("alice", false), ("bob", true), ("carol", false)]) (by decide +kernel)
  exact ⟨p, hp, hcreated, hrows, members_are_counted hp "g_1" hcreated⟩

/-- **Whoever names themselves is counted twice.** -/
theorem creator_counted_twice :
    ∃ p, (conversationService ⟨""⟩).Reach .any ⟨[], {}⟩ p ∧ "g_1" ∈ p.shared.created ∧
      p.shared.answers.map (fun x ↦ (x.1, x.2.isOk)) = [(0, true)] ∧
      (p.shared.convs.find "g_1").map (·.member_count) = some 3 ∧
      p.shared.members.rows.map (·.user_id) = ["alice", "bob"] ∧
      ¬ ∀ c, p.shared.convs.find "g_1" = some c → p.shared.IsCounted c := by
  obtain ⟨p, hp, hcreated, hanswer, hcount, hrows, hactive⟩ := Machine.exists_of_run
    (conversationService ⟨""⟩) .any ⟨[], {}⟩ (aliceGathers ["alice", "bob"])
    (fun p ↦ "g_1" ∈ p.shared.created ∧
      p.shared.answers.map (fun x ↦ (x.1, x.2.isOk)) = [(0, true)] ∧
      (p.shared.convs.find "g_1").map (·.member_count) = some 3 ∧
      p.shared.members.rows.map (·.user_id) = ["alice", "bob"] ∧
      p.shared.members.count (·.activeOf "g_1") = 2) (by decide +kernel)
  refine ⟨p, hp, hcreated, hanswer, hcount, hrows, fun h ↦ ?_⟩
  obtain ⟨c, hc, hthree⟩ := Option.map_eq_some_iff.1 hcount
  have hcid : c.conversation_id = "g_1" := Table.key_of_find hc
  have hcounted := h c hc
  rw [ConvState.IsCounted, hcid, hactive, hthree] at hcounted
  omega

end ChatNow
