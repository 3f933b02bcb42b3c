import ChatNow.Conversation.Contract
import ChatNow.Conversation.Machine

/-!
# What holds of the rows in every run

The invariant (`ConvInv`) that no interleaving and no failure breaks: there are members only of
conversations whose members have been inserted (`ConvState.created`), and so a call that has seen a
member writes to such a conversation; the row of a conversation that has no members yet is as its
creation has inserted it; and the type of a conversation stays.

`conv_invariant` carries this along with whatever is said of the runs under an assumption.
-/

namespace ChatNow

open Prog ConvOp

/-! ### The invariant -/

/-- The call has inserted the row of a conversation, and not yet its members. -/
structure ConvCall.Pending (t : ConvCall) (s : ConvState) (c : Conversation) : Prop where
  new : c.conversation_id ∉ s.created
  found : s.convs.find c.conversation_id = some c
  row : ∃ req cid now, t.req = .create req ∧
    c = { new_conversation t.auth_uid cid req with create_time := now, update_time := now }

/-- The calls and the tables agree. -/
structure ConvInv (ts : List ConvCall) (s : ConvState) : Prop where
  people : ∀ k m, s.members.find k = some m → k.1 ∈ s.created
  backed : ∀ cid ∈ s.created, ∃ c, s.convs.find cid = some c
  seen : ∀ (i : ℕ) t, ts[i]? = some t → ∀ cid ∈ t.seen, cid ∈ s.created
  read : ∀ (i : ℕ) t, ts[i]? = some t → ∀ c, t.conv = some c →
    ∃ c₁, s.convs.find c.conversation_id = some c₁ ∧ c₁.conversation_type = c.conversation_type
  pending : ∀ (i : ℕ) t, ts[i]? = some t → ∀ c, t.inserted = some c → t.Pending s c
  pending_one : ∀ (i j : ℕ) t u, ts[i]? = some t → ts[j]? = some u → ∀ c d, t.inserted = some c →
    u.inserted = some d → c.conversation_id = d.conversation_id → i = j

/-- What a step leaves of the conversations. -/
structure ConvState.Keeps (s s' : ConvState) : Prop where
  created : ∀ cid ∈ s.created, cid ∈ s'.created
  typed : ∀ cid c, s.convs.find cid = some c →
    ∃ c', s'.convs.find cid = some c' ∧ c'.conversation_type = c.conversation_type
  uncreated : ∀ cid c, cid ∉ s.created → s.convs.find cid = some c →
    s'.convs.find cid = some c

section Steps

variable {ts : List ConvCall} {s s' : ConvState} {i : ℕ} {t : ConvCall} {o : ConvOp} {r : o.Res}
  {ch : ConvChoice}

namespace ConvState

theorem Keeps.of_eq (hconvs : s'.convs = s.convs) (hcreated : ∀ cid ∈ s.created, cid ∈ s'.created) :
    s.Keeps s' where
  created := hcreated
  typed cid c hc := ⟨c, by rw [hconvs]; exact hc, rfl⟩
  uncreated cid c _ hc := by rw [hconvs]; exact hc

/-- A row is written over one of the same type, of a conversation that has its members. -/
theorem Keeps.of_write {cid : String} {c c₀ : Conversation} (hconvs : s'.convs = s.convs.write c)
    (hcreated : s'.created = s.created) (hcid : c.conversation_id = cid) (hmem : cid ∈ s.created)
    (hfind : s.convs.find cid = some c₀) (htype : c.conversation_type = c₀.conversation_type) :
    s.Keeps s' := by
  subst hcid
  refine ⟨fun cid h ↦ by rw [hcreated]; exact h, fun cid c₁ hc₁ ↦ ?_, fun cid c₁ hnew hc₁ ↦ ?_⟩
  · rw [hconvs]
    rcases eq_or_ne c.conversation_id cid with rfl | hne
    · obtain rfl := Option.some.inj (hfind.symm.trans hc₁)
      exact ⟨c, Table.find_write_self hfind, htype⟩
    · refine ⟨c₁, ?_, rfl⟩
      rw [Table.find_write_ne _ hne]
      exact hc₁
  · have hne : c.conversation_id ≠ cid := by
      rintro rfl
      exact hnew hmem
    rw [hconvs, Table.find_write_ne _ hne]
    exact hc₁

end ConvState

namespace ConvInv

theorem keeps (h : ConvInv ts s) (hi : ts[i]? = some t) (ha : t.allowed o)
    (hmove : ConvMove s ch o s') : s.Keeps s' := by
  cases hmove with
  | stay hconvs _ hcreated =>
    exact .of_eq hconvs fun cid hcid ↦ by rw [hcreated]; exact hcid
  | @found c convs hinsert =>
    have hnone := (Table.rows_of_insert hinsert).1
    have hfind {cid : String} {c₁ : Conversation} (hc₁ : s.convs.find cid = some c₁) :
        convs.find cid = some c₁ := by
      have hne : c.conversation_id ≠ cid := by
        rintro rfl
        rw [hnone] at hc₁
        cases hc₁
      rw [Table.find_insert hinsert, if_neg hne]
      exact hc₁
    exact
      { created := fun _ hcid ↦ hcid
        typed := fun _ c₁ hc₁ ↦ ⟨c₁, hfind hc₁, rfl⟩
        uncreated := fun _ _ _ hc₁ ↦ hfind hc₁ }
  | @restore c c₀ _ hfind =>
    obtain ⟨-, hseen, c₁, hc₁, hkeeps⟩ := ha
    obtain ⟨c₂, hc₂, htype⟩ := h.read i t hi c₁ hc₁
    rw [← hkeeps.conversation_id, hfind] at hc₂
    obtain rfl := Option.some.inj hc₂
    exact .of_write rfl rfl rfl (h.seen i t hi _ hseen) hfind
      (hkeeps.conversation_type.trans htype.symm)
  | people _ => exact .of_eq rfl fun _ hcid ↦ List.mem_append_right _ hcid
  | @join m _ c _ hc =>
    have hcid : c.conversation_id = m.conversation_id := Table.key_of_find hc
    exact .of_write rfl rfl hcid (h.seen i t hi _ ha.2.1) hc rfl
  | rewrite _ _ _ _ => exact .of_eq rfl fun _ hcid ↦ hcid
  | @recount _ m _ c _ _ hm _ hc =>
    have hcid : c.conversation_id = m.conversation_id := Table.key_of_find hc
    exact .of_write rfl rfl hcid (h.people _ _ hm) hc rfl
  | @transfer cid _ _ m1 _ c _ h1 _ _ _ hc =>
    have hcid : c.conversation_id = cid := Table.key_of_find hc
    exact .of_write rfl rfl hcid (h.people _ _ h1) hc rfl
  | half _ _ _ => exact .of_eq rfl fun _ hcid ↦ hcid
  | advance _ _ _ => exact .of_eq rfl fun _ hcid ↦ hcid

/-- Members are inserted for the conversation that the call has inserted. -/
theorem created_of_move (ha : t.allowed o) (hmove : ConvMove s ch o s') {cid : String}
    (hcid : cid ∈ s'.created) :
    cid ∈ s.created ∨ (∃ rows, o = appendAfterCreate rows) ∧
      ∃ c, t.inserted = some c ∧ c.conversation_id = cid := by
  cases hmove with
  | stay _ _ hcreated =>
    rw [hcreated] at hcid
    exact .inl hcid
  | @people rows _ hinsert =>
    rcases List.mem_append.1 hcid with hnew | hold
    · obtain ⟨-, req, c, now, -, hc, rfl⟩ := ha
      obtain ⟨m, hm, rfl⟩ := List.mem_map.1 hnew
      exact .inr ⟨⟨_, rfl⟩, c, hc, (conversation_id_of_mem_new_members hm).symm⟩
    · exact .inl hold
  | _ => exact .inl hcid

theorem people_of_move (h : ConvInv ts s) (hi : ts[i]? = some t) (ha : t.allowed o)
    (hmove : ConvMove s ch o s') {k : String × String} {m : ConversationMember}
    (hm : s'.members.find k = some m) : k.1 ∈ s'.created := by
  cases hmove with
  | stay _ hmembers hcreated =>
    rw [hcreated]
    rw [hmembers] at hm
    exact h.people k m hm
  | @people rows members hinsert =>
    by_cases hnew : ∃ m' ∈ rows, m'.key = k
    · obtain ⟨m', hm', rfl⟩ := hnew
      exact List.mem_append_left _ (List.mem_map_of_mem hm')
    · have hold := (Table.find_insertAll hinsert).2 k fun m' hm' heq ↦ hnew ⟨m', hm', heq⟩
      rw [hold] at hm
      exact List.mem_append_right _ (h.people k m hm)
  | @join m' members _ hinsert _ =>
    rcases eq_or_ne m'.key k with rfl | hne
    · exact h.seen i t hi _ ha.2.1
    · rw [Table.find_insert hinsert, if_neg hne] at hm
      exact h.people k m hm
  | found _ => exact h.people k m hm
  | restore _ _ => exact h.people k m hm
  | rewrite _ _ _ _ =>
    obtain ⟨m₀, hm₀⟩ := Table.exists_of_find_write hm
    exact h.people k m₀ hm₀
  | recount _ _ _ _ _ =>
    obtain ⟨m₀, hm₀⟩ := Table.exists_of_find_write hm
    exact h.people k m₀ hm₀
  | transfer _ _ _ _ _ _ =>
    obtain ⟨m₁, hm₁⟩ := Table.exists_of_find_write hm
    obtain ⟨m₀, hm₀⟩ := Table.exists_of_find_write hm₁
    exact h.people k m₀ hm₀
  | half _ _ _ =>
    obtain ⟨m₁, hm₁⟩ := Table.exists_of_find_write hm
    obtain ⟨m₀, hm₀⟩ := Table.exists_of_find_write hm₁
    exact h.people k m₀ hm₀
  | advance _ _ _ =>
    obtain ⟨m₀, hm₀⟩ := Table.exists_of_find_write hm
    exact h.people k m₀ hm₀

/-- A conversation that is new is not one with members. -/
theorem conv_of_insert {cid : String} {c c' : Conversation}
    {convs : Table Conversation.conversation_id} (h : ConvInv ts s) (hcid : cid ∈ s.created)
    (hinsert : s.convs.insert c = some convs) (hc' : convs.find cid = some c') :
    s.convs.find cid = some c' := by
  obtain ⟨c₀, hc₀⟩ := h.backed cid hcid
  have hne : c.conversation_id ≠ cid := by
    rintro rfl
    rw [(Table.rows_of_insert hinsert).1] at hc₀
    cases hc₀
  rwa [Table.find_insert hinsert, if_neg hne] at hc'

/-- Nobody is a member of a conversation before its members are inserted. -/
theorem count_uncreated {cid : String} {P : ConversationMember → Bool} (h : ConvInv ts s)
    (hnew : cid ∉ s.created) (hP : ∀ m, P m = true → m.conversation_id = cid) :
    s.members.count P = 0 := by
  refine (Table.count_eq_zero _).2 fun k m hm ↦ Bool.eq_false_iff.2 fun hPm ↦ hnew ?_
  have hkey : m.key = k := Table.key_of_find hm
  have hmem := h.people k m hm
  rw [← hkey] at hmem
  rw [← hP m hPm]
  exact hmem

end ConvInv

/-! What a call knows after an answer. -/

namespace ConvCall

theorem seen_of_next (hx : s.exec i o ch = some (r, s')) {cid : String}
    (h : cid ∈ (t.next o r).seen) :
    cid ∈ t.seen ∨ ∃ k m, s.members.find k = some m ∧ k.1 = cid := by
  unfold next at h
  split at h
  · next cid' uid m =>
    rcases List.mem_cons.1 h with rfl | h
    · have hm := ConvState.find_of_selectMember hx
      exact .inr ⟨_, m, hm, congrArg Prod.fst (Table.key_of_find hm).symm⟩
    · exact .inl h
  all_goals exact .inl h

theorem conv_of_next (hx : s.exec i o ch = some (r, s')) {c : Conversation}
    (h : (t.next o r).conv = some c) :
    t.conv = some c ∨ s.convs.find c.conversation_id = some c := by
  unfold next at h
  split at h
  · exact .inl h
  · next cid c' =>
    obtain rfl : c' = c := Option.some.inj h
    have hc := ConvState.find_of_selectConv hx
    have hcid : c'.conversation_id = cid := Table.key_of_find hc
    rw [hcid]
    exact .inr hc
  all_goals exact .inl h

theorem inserted_of_next (hx : s.exec i o ch = some (r, s')) {c : Conversation}
    (h : (t.next o r).inserted = some c) :
    (t.inserted = some c ∧ ∀ rows, o ≠ appendAfterCreate rows) ∨
      o = insertConv c ∧ s.convs.find c.conversation_id = none ∧
        s'.convs.find c.conversation_id = some c := by
  unfold next at h
  split at h
  · exact .inl ⟨h, fun _ ↦ ConvOp.noConfusion⟩
  · exact .inl ⟨h, fun _ ↦ ConvOp.noConfusion⟩
  · obtain rfl := Option.some.inj h
    exact .inr ⟨rfl, ConvState.find_of_insertConv hx⟩
  · cases h
  · next hne => exact .inl ⟨h, fun rows ho ↦ hne rows (ho ▸ r) ho (by subst ho; rfl)⟩

end ConvCall

namespace ConvInv

theorem admits (hx : s.exec i o ch = some (r, s')) : ConvCall.admits o r := by
  unfold ConvCall.admits
  split
  · exact Table.key_of_find (ConvState.find_of_selectMember hx)
  · exact Table.key_of_find (ConvState.find_of_selectConv hx)
  · trivial

/-- A conversation that another call has inserted stays without members. -/
theorem pending_other (h : ConvInv ts s) (hi : ts[i]? = some t) (ha : t.allowed o)
    (hmove : ConvMove s ch o s') {j : ℕ} {u : ConvCall} (hj : ts[j]? = some u) (hne : j ≠ i)
    {c : Conversation} (hc : u.inserted = some c) : u.Pending s' c := by
  have hpending := h.pending j u hj c hc
  refine ⟨fun hcid ↦ ?_, (h.keeps hi ha hmove).uncreated _ _ hpending.new hpending.found,
    hpending.row⟩
  rcases created_of_move ha hmove hcid with hold | ⟨-, d, hd, hcd⟩
  · exact hpending.new hold
  · exact hne (h.pending_one j i u t hj hi c d hc hd hcd.symm)

theorem pending_next (h : ConvInv ts s) (hi : ts[i]? = some t) (ha : t.allowed o)
    (hx : s.exec i o ch = some (r, s')) {c : Conversation} (hc : (t.next o r).inserted = some c) :
    (t.next o r).Pending s' c := by
  have hmove := ConvMove.of_exec hx
  rcases ConvCall.inserted_of_next hx hc with ⟨hold, hne⟩ | ⟨rfl, hnone, hfind⟩
  · have hpending := h.pending i t hi c hold
    refine ⟨fun hcid ↦ ?_, (h.keeps hi ha hmove).uncreated _ _ hpending.new hpending.found, ?_⟩
    · rcases created_of_move ha hmove hcid with hold | ⟨⟨rows, ho⟩, -⟩
      · exact hpending.new hold
      · exact hne rows ho
    · rw [t.next_req, t.next_auth_uid]
      exact hpending.row
  · refine ⟨fun hcid ↦ ?_, hfind, ?_⟩
    · rcases created_of_move ha hmove hcid with hold | ⟨⟨rows, ho⟩, -⟩
      · obtain ⟨c', hc'⟩ := h.backed _ hold
        rw [hnone] at hc'
        cases hc'
      · cases ho
    · rw [t.next_req, t.next_auth_uid]
      exact ha.2

/-- **A call keeps the invariant.** -/
theorem call (h : ConvInv ts s) (hi : ts[i]? = some t) (ha : t.allowed o)
    (hx : s.exec i o ch = some (r, s')) : ConvInv (ts.set i (t.next o r)) s' := by
  have hmove := ConvMove.of_exec hx
  have hkeeps := h.keeps hi ha hmove
  have hread {c c₁ : Conversation} (hc : s.convs.find c.conversation_id = some c₁)
      (htype : c₁.conversation_type = c.conversation_type) :
      ∃ c₂, s'.convs.find c.conversation_id = some c₂ ∧
        c₂.conversation_type = c.conversation_type := by
    obtain ⟨c₂, hc₂, htype₂⟩ := hkeeps.typed _ _ hc
    exact ⟨c₂, hc₂, htype₂.trans htype⟩
  have hone {j : ℕ} {u : ConvCall} (hj : ts[j]? = some u) (hne : j ≠ i) {c d : Conversation}
      (hc : u.inserted = some c) (hd : (t.next o r).inserted = some d) :
      c.conversation_id ≠ d.conversation_id := by
    intro heq
    rcases ConvCall.inserted_of_next hx hd with ⟨hold, -⟩ | ⟨-, hnone, -⟩
    · exact hne (h.pending_one j i u t hj hi c d hc hold heq)
    · rw [← heq, (h.pending j u hj c hc).found] at hnone
      cases hnone
  refine ⟨fun k m hm ↦ h.people_of_move hi ha hmove hm, fun cid hcid ↦ ?_, fun j u hu cid hcid ↦ ?_,
    fun j u hu c hc ↦ ?_, fun j u hu c hc ↦ ?_, fun j k u v hu hv c d hc hd heq ↦ ?_⟩
  · rcases created_of_move ha hmove hcid with hold | ⟨-, c, hc, rfl⟩
    · obtain ⟨c, hc⟩ := h.backed cid hold
      obtain ⟨c', hc', -⟩ := hkeeps.typed cid c hc
      exact ⟨c', hc'⟩
    · obtain ⟨c', hc', -⟩ := hkeeps.typed _ _ (h.pending i t hi c hc).found
      exact ⟨c', hc'⟩
  · refine hkeeps.created cid ?_
    rcases Pool.getElem?_set_cases hu with ⟨-, rfl⟩ | ⟨-, hold⟩
    · rcases ConvCall.seen_of_next hx hcid with hseen | ⟨k, m, hm, rfl⟩
      · exact h.seen i t hi cid hseen
      · exact h.people k m hm
    · exact h.seen j u hold cid hcid
  · rcases Pool.getElem?_set_cases hu with ⟨-, rfl⟩ | ⟨-, hold⟩
    · rcases ConvCall.conv_of_next hx hc with hconv | hfind
      · obtain ⟨c₁, hc₁, htype⟩ := h.read i t hi c hconv
        exact hread hc₁ htype
      · exact hread hfind rfl
    · obtain ⟨c₁, hc₁, htype⟩ := h.read j u hold c hc
      exact hread hc₁ htype
  · rcases Pool.getElem?_set_cases hu with ⟨-, rfl⟩ | ⟨hne, hold⟩
    · exact h.pending_next hi ha hx hc
    · exact h.pending_other hi ha hmove hold hne hc
  · rcases Pool.getElem?_set_cases hu with ⟨hj, rfl⟩ | ⟨hj, hu⟩
    · rcases Pool.getElem?_set_cases hv with ⟨hk, -⟩ | ⟨hk, hv⟩
      · exact hj.trans hk.symm
      · exact absurd heq.symm (hone hv hk hd hc)
    · rcases Pool.getElem?_set_cases hv with ⟨-, rfl⟩ | ⟨-, hv⟩
      · exact absurd heq (hone hu hj hc hd)
      · exact h.pending_one j k u v hu hv c d hc hd heq

/-- **The arrival of a request keeps the invariant.** -/
theorem arrive (h : ConvInv ts s) (auth_uid : String) (req : ConvReq)
    (requests : List (String × ConvReq)) :
    ConvInv (ts ++ [⟨auth_uid, req, none, none, [], none⟩]) { s with requests := requests } where
  people := h.people
  backed := h.backed
  seen j u hu cid hcid := by
    rcases Pool.getElem?_append_cases hu with ⟨-, rfl⟩ | ⟨-, hold⟩
    · exact absurd hcid List.not_mem_nil
    · exact h.seen j u hold cid hcid
  read j u hu c hc := by
    rcases Pool.getElem?_append_cases hu with ⟨-, rfl⟩ | ⟨-, hold⟩
    · cases hc
    · exact h.read j u hold c hc
  pending j u hu c hc := by
    rcases Pool.getElem?_append_cases hu with ⟨-, rfl⟩ | ⟨-, hold⟩
    · cases hc
    · exact ⟨(h.pending j u hold c hc).new, (h.pending j u hold c hc).found,
        (h.pending j u hold c hc).row⟩
  pending_one j k u v hu hv c d hc hd heq := by
    rcases Pool.getElem?_append_cases hu with ⟨-, rfl⟩ | ⟨-, hu⟩
    · cases hc
    · rcases Pool.getElem?_append_cases hv with ⟨-, rfl⟩ | ⟨-, hv⟩
      · cases hd
      · exact h.pending_one j k u v hu hv c d hc hd heq

/-- Before anything has happened. -/
theorem empty : ConvInv [] {} where
  people _ m hm := absurd (hm : none = some m) (Option.some_ne_none m).symm
  backed _ h := absurd h List.not_mem_nil
  seen _ t hi := absurd (hi : none = some t) (Option.some_ne_none t).symm
  read _ t hi := absurd (hi : none = some t) (Option.some_ne_none t).symm
  pending _ t hi := absurd (hi : none = some t) (Option.some_ne_none t).symm
  pending_one _ _ t _ hi := absurd (hi : none = some t) (Option.some_ne_none t).symm

end ConvInv

end Steps

/-! ### Over a run -/

/-- The invariant, and what is said beside it. -/
def ConvInv.With (I : List ConvCall → ConvState → Prop) (ts : List ConvCall) (s : ConvState) :
    Prop :=
  ConvInv ts s ∧ I ts s

/-- **The rule for runs from empty tables.** What is said of calls and tables beside the invariant
has to survive the calls, which are moves, and the arrivals. -/
theorem conv_invariant {cfg : ConversationServiceConfig}
    {G : Machine.Guard ConvOp ConvOp.Res ConvState ConvChoice ConvEv}
    {I : List ConvCall → ConvState → Prop} {p : ConvPool}
    (hr : (conversationService cfg).Reach G ⟨[], {}⟩ p) (h₀ : I [] {})
    (hcall : ∀ {ts s i t o ch r s'}, ConvInv ts s → I ts s → ts[i]? = some t → t.allowed o →
      G.onOp i o ch s → s.exec i o ch = some (r, s') → ConvMove s ch o s' →
      I (ts.set i (t.next o r)) s')
    (harrive : ∀ {ts : List ConvCall} {auth_uid req} {p : ConvPool}, I ts p.shared →
      G.onEv (.arrive auth_uid req) p → I (ts ++ [⟨auth_uid, req, none, none, [], none⟩])
        { p.shared with requests := p.shared.requests ++ [(auth_uid, req)] }) :
    ∃ ts, ConvInv ts p.shared ∧ I ts p.shared ∧ p.Meets convContract (fun _ ↦ True) ts := by
  obtain ⟨ts, h, hm⟩ : ∃ ts, ConvInv.With I ts p.shared ∧
      p.Meets convContract (fun _ ↦ True) ts := by
    refine Machine.invariant hr ⟨[], ⟨ConvInv.empty, h₀⟩, .nil⟩ ?_ ?_
    · intro ts s i t o ch r s' h hi ha hop hx
      exact ⟨ConvInv.admits hx, h.1.call hi ha hx, hcall h.1 h.2 hi ha hop hx (.of_exec hx)⟩
    · intro ts p e p' h hm hev hx
      cases e with
      | arrive auth_uid req =>
        obtain rfl := Option.some.inj hx
        exact ⟨_, ⟨h.1.arrive auth_uid req _, harrive h.2 hev⟩,
          hm.spawn (handle_rpc_meets auth_uid req) _⟩
      | crash i =>
        obtain rfl := Option.some.inj hx
        exact ⟨ts, h, hm.stop (fun _ ↦ trivial) i _⟩
  exact ⟨ts, h.1, h.2, hm⟩

end ChatNow
