import ChatNow.Conversation.Machine
import ChatNow.Lib.Exec

/-!
# CreateConversation, all or nothing

`CreateConversation` inserts the row of the conversation in one transaction and the rows of its
members in another. When the second one fails there is nothing that takes the first one back, and
the id of a private conversation is the same for every later call.

A call runs alone here, from any state of the tables in which its id is new, with any failures of
its transactions (`Prog.run`). The keys of the tables are compared as MySQL compares texts
(`collate`), while the handler compares the ids of users byte by byte. `Inserted` says how the
insertions end; `create_atomic_iff` when a call is all or nothing.
-/

namespace ChatNow

open Prog ConvOp

variable {cfg : ConversationServiceConfig} {collate : String → String} {i : ℕ}

/-! ### The tables with their collation -/

/-- `uk_conv_user`, as MySQL compares it. -/
def ConversationMember.collated (collate : String → String) (m : ConversationMember) :
    String × String :=
  (collate m.conversation_id, collate m.user_id)

namespace ConvState

variable (s : ConvState)

/-- The row of the conversation. -/
def convBy (collate : String → String) (cid : String) : Option Conversation :=
  s.convs.rows.find? fun v ↦ collate v.conversation_id = collate cid

/-- The row of the member. -/
def memberBy (collate : String → String) (cid uid : String) : Option ConversationMember :=
  s.members.rows.find? fun m ↦ m.collated collate = (collate cid, collate uid)

/-- No two of the rows have the same key, and none has the key of a row that is there. -/
def Free (collate : String → String) (rows : List ConversationMember) : Prop :=
  (rows.map (·.collated collate)).Nodup ∧
    ∀ m ∈ rows, s.memberBy collate m.conversation_id m.user_id = none

instance (collate : String → String) (rows : List ConversationMember) :
    Decidable (s.Free collate rows) := inferInstanceAs (Decidable (_ ∧ _))

/-- The effect of a call by thread `i`, where MySQL compares the ids by `collate`. No other
operation of `CreateConversation` looks at them. -/
def execBy (collate : String → String) (i : ℕ) :
    (o : ConvOp) → ConvChoice → ConvState → Option (o.Res × ConvState)
  | selectConv cid, c, s => some (if c.fault then none else s.convBy collate cid, s)
  | selectMember cid uid, c, s =>
    some (if c.fault then (none, s) else s.readMember i (s.memberBy collate cid uid))
  | insertConv row, c, s =>
    if s.convBy collate row.conversation_id = none then s.exec i (insertConv row) c
    else some (false, s)
  | appendAfterCreate rows, c, s =>
    if s.Free collate rows then s.exec i (appendAfterCreate rows) c else some (false, s)
  | o, c, s => s.exec i o c

/-- Where texts are compared byte by byte, that is the effect of the call. -/
theorem execBy_id (i : ℕ) : execBy id i = exec i := by
  funext o c s
  cases o with
  | insertConv row =>
    show ite _ _ _ = _
    split
    · rfl
    · next htaken =>
      have hnone : s.convs.insert row = none := by
        rw [← Option.not_isSome_iff_eq_none, Table.insert_isSome]
        exact htaken
      show _ = some (s.commit c ((s.convs.insert row).map _))
      rw [hnone]
      rfl
  | appendAfterCreate rows =>
    show ite _ _ _ = _
    split
    · rfl
    · next htaken =>
      have hnone : s.members.insertAll rows = none := by
        refine Option.eq_none_iff_forall_ne_some.2 fun members h ↦ htaken ?_
        exact ⟨Table.nodup_of_insertAll h, fun m hm ↦ ((Table.find_insertAll h).1 m hm).1⟩
      show _ = some (s.commit c ((s.members.insertAll rows).map _))
      rw [hnone]
      rfl
  | _ => rfl

/-- No row has the id. -/
def NewId (collate : String → String) (s : ConvState) (cid : String) : Prop :=
  s.convBy collate cid = none ∧ ∀ m ∈ s.members.rows, collate m.conversation_id ≠ collate cid

variable {s} {cid : String}

theorem NewId.find_conv (h : s.NewId collate cid) : s.convs.find cid = none := by
  refine s.convs.find_eq_none.2 fun v hv hcid ↦ ?_
  have hne : ¬collate v.conversation_id = collate cid :=
    fun heq ↦ List.find?_eq_none.1 h.1 v hv (decide_eq_true heq)
  exact hne (congrArg collate hcid)

theorem memberBy_eq_none (h : ∀ m ∈ s.members.rows, collate m.conversation_id ≠ collate cid)
    (uid : String) : s.memberBy collate cid uid = none :=
  List.find?_eq_none.2 fun m hm hkey ↦ h m hm (Prod.mk.inj (of_decide_eq_true hkey)).1

theorem NewId.find_member (h : s.NewId collate cid) (uid : String) :
    s.members.find (cid, uid) = none := by
  refine s.members.find_eq_none.2 fun m hm hkey ↦ h.2 m hm ?_
  exact congrArg collate (Prod.mk.inj hkey).1

end ConvState

/-! ### The rows of the members -/

section Members

variable (auth_uid cid : String) (now : ℤ) {req : conversation.CreateConversationReq}

/-- The members but for the caller. -/
def other_members (auth_uid : String) (req : conversation.CreateConversationReq) : List String :=
  req.member_ids.filter (· ≠ auth_uid)

/-- The caller and the other members have different ids, as MySQL compares them. -/
def MembersDiffer (collate : String → String) (auth_uid : String)
    (req : conversation.CreateConversationReq) : Prop :=
  ((auth_uid :: other_members auth_uid req).map collate).Nodup

theorem user_ids_new_members : (new_members auth_uid cid now req).map (·.user_id) =
    auth_uid :: other_members auth_uid req := by
  rw [new_members, List.map_cons, List.map_map]
  exact congrArg (auth_uid :: ·) (List.map_id _)

/-- The rows of the members have different keys exactly when the ids of the members differ. -/
theorem nodup_collated_new_members :
    ((new_members auth_uid cid now req).map (·.collated collate)).Nodup ↔
      MembersDiffer collate auth_uid req := by
  have hkeys : (new_members auth_uid cid now req).map (·.collated collate) =
      ((auth_uid :: other_members auth_uid req).map collate).map (collate cid, ·) := by
    rw [← user_ids_new_members auth_uid cid now, List.map_map, List.map_map]
    refine List.map_congr_left fun m hm ↦ Prod.ext ?_ rfl
    exact congrArg collate (conversation_id_of_mem_new_members hm)
  rw [hkeys]
  exact List.nodup_map_iff fun a b hab ↦ (Prod.mk.inj hab).2

variable {s : ConvState}

/-- The members of a new conversation can be inserted exactly when their ids differ. -/
theorem free_new_members
    (hnew : ∀ m ∈ s.members.rows, collate m.conversation_id ≠ collate cid) :
    s.Free collate (new_members auth_uid cid now req) ↔ MembersDiffer collate auth_uid req := by
  rw [← nodup_collated_new_members auth_uid cid now]
  refine and_iff_left fun m hm ↦ ?_
  rw [conversation_id_of_mem_new_members hm]
  exact ConvState.memberBy_eq_none hnew m.user_id

/-- And then they are inserted. -/
theorem insertAll_new_members (hnew : s.NewId collate cid)
    (hdiffer : MembersDiffer collate auth_uid req) :
    ∃ members, s.members.insertAll (new_members auth_uid cid now req) = some members := by
  refine Table.insertAll_of_nodup ?_ fun m hm ↦ ?_
  · have hnodup := (nodup_collated_new_members auth_uid cid now).2 hdiffer
    have hkeys : (new_members auth_uid cid now req).map (·.collated collate) =
        ((new_members auth_uid cid now req).map (·.key)).map
          fun k ↦ (collate k.1, collate k.2) := by
      rw [List.map_map]
      rfl
    rw [hkeys] at hnodup
    exact hnodup.of_map _
  · have hcid := conversation_id_of_mem_new_members hm
    show s.members.find (m.conversation_id, m.user_id) = none
    rw [hcid]
    exact hnew.find_member m.user_id

end Members

/-! ### How the insertions end -/

section Insert

variable {auth_uid cid : String} {req : conversation.CreateConversationReq} {s s' : ConvState}
  {cs : List ConvChoice} {rsp : Except ServiceError ConvRsp}

/-- Whatever a transaction that can succeed reports. -/
theorem ConvState.commit_some {c : ConvChoice} {s₁ : ConvState} {ok : Bool}
    (h : s.commit c (some s₁) = (ok, s')) : ok = !c.fault ∧ s' = if c.acts then s₁ else s := by
  obtain ⟨rfl, rfl⟩ := Prod.mk.inj h
  exact ⟨rfl, rfl⟩

/-- **How the insertions of a new conversation end**, by the choices for the two transactions. -/
inductive Inserted (collate : String → String) (auth_uid cid : String)
    (req : conversation.CreateConversationReq) (s : ConvState) (ins app : ConvChoice) :
    Except ServiceError ConvRsp → ConvState → Prop
  /-- The conversation is not inserted. -/
  | refused {e : ServiceError} (hacts : ins.acts = false) :
    Inserted collate auth_uid cid req s ins app (.error e) s
  /-- It is inserted, and this is not reported. -/
  | unreported {e : ServiceError} {s' : ConvState} (hacts : ins.acts = true)
    (hfault : ins.fault = true) (hconv : ¬s'.NewId collate cid) :
    Inserted collate auth_uid cid req s ins app (.error e) s'
  /-- It is, and the members are not, or this is not reported. -/
  | stranded {e : ServiceError} {s' : ConvState} (hacts : ins.acts = true)
    (hrows : ¬(app.fault = false ∧ MembersDiffer collate auth_uid req))
    (hconv : ¬s'.NewId collate cid) : Inserted collate auth_uid cid req s ins app (.error e) s'
  /-- All is inserted. -/
  | created {rsp : ConvRsp} {s' : ConvState} (hfault : ins.fault = false)
    (hrows : app.fault = false ∧ MembersDiffer collate auth_uid req) :
    Inserted collate auth_uid cid req s ins app (.ok rsp) s'

/-- The insertion of a conversation whose id is new. -/
theorem ConvState.execBy_insertConv {row : Conversation} {c : ConvChoice}
    (hnew : s.NewId collate row.conversation_id) :
    s.execBy collate i (insertConv row) c = s.exec i (insertConv row) c := if_pos hnew.1

theorem run_insert_conversation (hnew : s.NewId collate cid)
    (h : (insert_conversation cfg auth_uid cid req).run (ConvState.execBy collate i) cs s =
      some (rsp, s')) :
    Inserted collate auth_uid cid req s (cs.getD 1 {}) (cs.getD 3 {}) rsp s' := by
  obtain ⟨c, cs, now, s₁, rfl, hclock, h⟩ := run_call h
  obtain ⟨rfl, rfl⟩ := Prod.mk.inj (Option.some.inj hclock)
  obtain ⟨ins, cs, ok, s₁, rfl, hins, h⟩ := run_call h
  obtain ⟨convs, hconvs⟩ : ∃ convs, s.convs.insert
      { new_conversation auth_uid cid req with create_time := c.now, update_time := c.now } =
        some convs :=
    Option.isSome_iff_exists.1 (Table.insert_isSome.2 hnew.find_conv)
  have hthere {members : Table ConversationMember.key} {created : List String} :
      ¬{ s with convs, members, created }.NewId collate cid := by
    intro hnew'
    have hsome : convs.find cid = some _ := (Table.find_insert hconvs).trans (if_pos rfl)
    have hnone : convs.find cid = none := hnew'.find_conv
    rw [hsome] at hnone
    cases hnone
  rw [ConvState.execBy_insertConv hnew] at hins
  have hins' := Option.some.inj hins
  rw [hconvs] at hins'
  obtain ⟨rfl, rfl⟩ := ConvState.commit_some hins'
  cases hfault : ins.fault with
  | true =>
    rw [hfault] at h
    obtain ⟨rfl, rfl⟩ := run_ret h
    by_cases hacts : ins.acts = true
    · exact .unreported hacts hfault (by rw [if_pos hacts]; exact hthere)
    · rw [if_neg hacts]
      exact .refused (Bool.eq_false_iff.2 hacts)
  | false =>
    have hacts : ins.acts = true := by
      rw [ConvChoice.acts, hfault]
      rfl
    rw [hfault, if_pos hacts] at h
    obtain ⟨c', cs, now, s₁, rfl, hclock, h⟩ := run_call h
    obtain ⟨rfl, rfl⟩ := Prod.mk.inj (Option.some.inj hclock)
    obtain ⟨app, cs, ok, s₁, rfl, happ, h⟩ := run_call h
    -- the insertion of the conversation has left the members alone
    have hfree : ConvState.Free { s with convs } collate (new_members auth_uid cid c'.now req) ↔
        MembersDiffer collate auth_uid req := free_new_members auth_uid cid c'.now hnew.2
    by_cases hdiffer : MembersDiffer collate auth_uid req
    · have happ' := Option.some.inj ((if_pos (hfree.2 hdiffer)).symm.trans happ)
      obtain ⟨members, hmembers⟩ := insertAll_new_members auth_uid cid c'.now hnew hdiffer
      rw [ConvState.appendRows, hmembers] at happ'
      obtain ⟨rfl, rfl⟩ := ConvState.commit_some happ'
      cases hfault' : app.fault with
      | true =>
        rw [hfault'] at h
        obtain ⟨rfl, rfl⟩ := run_ret h
        refine .stranded hacts (fun hrows ↦ ?_) ?_
        · have hok : app.fault = false := hrows.1
          rw [hfault'] at hok
          cases hok
        · split <;> exact hthere
      | false =>
        rw [hfault'] at h
        obtain ⟨_, _, _, _, -, -, h⟩ := run_call h
        obtain ⟨_, _, _, _, -, -, h⟩ := run_call h
        obtain ⟨rfl, -⟩ := run_ret h
        exact .created hfault ⟨hfault', hdiffer⟩
    · have happ' := Option.some.inj
        ((if_neg fun hrows ↦ hdiffer (hfree.1 hrows)).symm.trans happ)
      obtain ⟨rfl, rfl⟩ := Prod.mk.inj happ'
      obtain ⟨rfl, rfl⟩ := run_ret h
      exact .stranded hacts (fun hrows ↦ hdiffer hrows.2) hthere

/-- The rows of a new conversation can be inserted. -/
theorem exec_insert_conversation (hnew : s.NewId collate cid)
    (hdiffer : MembersDiffer collate auth_uid req) :
    ∃ s' rsp,
      (insert_conversation cfg auth_uid cid req).Exec (ConvState.execBy collate i) s (.ok rsp) s' ∧
      s'.requests = s.requests ∧ s'.convs.find cid = some (new_conversation auth_uid cid req) ∧
      s.members.insertAll (new_members auth_uid cid 0 req) = some s'.members := by
  obtain ⟨convs, hconvs⟩ : ∃ convs,
      s.convs.insert (new_conversation auth_uid cid req) = some convs :=
    Option.isSome_iff_exists.1 (Table.insert_isSome.2 hnew.find_conv)
  obtain ⟨members, hmembers⟩ := insertAll_new_members auth_uid cid 0 hnew hdiffer
  let s₁ : ConvState := { s with convs := convs }
  let s₂ : ConvState :=
    { s₁ with
      members := members
      created := (new_members auth_uid cid 0 req).map (·.conversation_id) ++ s.created }
  have hconv : ConvState.execBy collate i (insertConv
      { new_conversation auth_uid cid req with create_time := 0, update_time := 0 }) {} s =
        some (true, s₁) := by
    rw [ConvState.execBy_insertConv hnew]
    show some (ConvState.commit _ _ ((Table.insert s.convs
      (new_conversation auth_uid cid req)).map _)) = _
    rw [hconvs]
    rfl
  have hrows : ConvState.execBy collate i (appendAfterCreate (new_members auth_uid cid 0 req)) {} s₁
      = some (true, s₂) := by
    have hfree : s₁.Free collate (new_members auth_uid cid 0 req) :=
      (free_new_members auth_uid cid 0 hnew.2).2 hdiffer
    refine (if_pos hfree).trans ?_
    show some (ConvState.commit _ _ ((Table.insertAll _ _).map _)) = _
    rw [hmembers]
    rfl
  refine ⟨s₂, .conversation (created_rsp cfg (new_conversation auth_uid cid req) 0 req), ?_, rfl,
    ?_, hmembers⟩
  · have hclock (s : ConvState) : ConvState.execBy collate i clock {} s = some (0, s) := rfl
    refine .call (hclock s) ?_
    refine .call hconv ?_
    refine .call (hclock s₁) ?_
    refine .call hrows ?_
    exact .call (c := {}) rfl (.call (c := {}) rfl (.ret _ _))
  · rw [Table.find_insert hconvs]
    exact if_pos rfl

end Insert

/-! ### All or nothing -/

section Create

variable {auth_uid : String} {req : conversation.CreateConversationReq} {s s' : ConvState}
  {cs : List ConvChoice} {rsp : Except ServiceError ConvRsp}

/-- The id of the conversation that a call creates: the first thing the environment decides is what
the id depends on. -/
def create_id (auth_uid : String) (req : conversation.CreateConversationReq)
    (cs : List ConvChoice) : String :=
  if req.type = .PRIVATE then private_id_of_ auth_uid (req.member_ids.headD "")
  else "g_" ++ (cs.headD {}).uuid

/-- The choice for the insertion of the conversation, after those for the id and the clock. -/
def atInsert (cs : List ConvChoice) : ConvChoice := cs.getD 2 {}

/-- The choice for the insertion of the members, after another one for the clock. -/
def atAppend (cs : List ConvChoice) : ConvChoice := cs.getD 4 {}

/-- A call that reports failure leaves no row of its id, and where it was for two users another one
like it can succeed. -/
structure CreateAtomic (cfg : ConversationServiceConfig) (collate : String → String) (i : ℕ)
    (auth_uid : String) (req : conversation.CreateConversationReq) (cid : String)
    (rsp : Except ServiceError ConvRsp) (s' : ConvState) : Prop where
  nothing : (∃ e, rsp = .error e) → s'.NewId collate cid
  again : (∃ e, rsp = .error e) → req.type = .PRIVATE → ∀ peer, req.member_ids = [peer] →
    ∃ rsp' s'',
      (CreateConversation cfg auth_uid req).Exec (ConvState.execBy collate i) s' (.ok rsp') s'' ∧
      ∀ uid ∈ [auth_uid, peer], ∃ m, s''.members.find (cid, uid) = some m ∧ m.is_quit = false

/-- Once the conversation is inserted nothing fails: neither transaction, nor do two of the members
have one id. Where it is not inserted, two users that are to be brought together have two ids. -/
def NothingFails (collate : String → String) (auth_uid : String)
    (req : conversation.CreateConversationReq) (cs : List ConvChoice) : Prop :=
  create_error req = none →
    if (atInsert cs).acts = true then
      (atInsert cs).fault = false ∧ (atAppend cs).fault = false ∧ MembersDiffer collate auth_uid req
    else req.type = .PRIVATE → MembersDiffer collate auth_uid req

theorem create_error_of_private {peer : String} (htype : req.type = .PRIVATE)
    (hpeer : req.member_ids = [peer]) : create_error req = none := by
  rw [create_error, htype, hpeer]
  rfl

/-- A call for two users names one other. -/
theorem peer_of_private (htype : req.type = .PRIVATE) (herror : create_error req = none) :
    ∃ peer, req.member_ids = [peer] := by
  rw [create_error, htype, if_neg (by decide)] at herror
  split at herror
  · cases herror
  · next hlength => exact List.length_eq_one_iff.1 (not_not.1 fun hne ↦ hlength ⟨rfl, hne⟩)

/-- What a call for a new id comes to. -/
theorem run_create (herror : create_error req = none)
    (hnew : s.NewId collate (create_id auth_uid req cs))
    (h : (CreateConversation cfg auth_uid req).run (ConvState.execBy collate i) cs s =
      some (rsp, s')) :
    Inserted collate auth_uid (create_id auth_uid req cs) req s (atInsert cs) (atAppend cs) rsp
      s' := by
  rw [CreateConversation, herror] at h
  dsimp only at h
  by_cases htype : req.type = .PRIVATE
  · rw [if_pos htype] at h
    obtain ⟨c, cs, r, s₁, rfl, hfind, h⟩ := run_call h
    have hid : create_id auth_uid req (c :: cs) =
        private_id_of_ auth_uid (req.member_ids.headD "") := if_pos htype
    rw [hid] at hnew ⊢
    obtain ⟨rfl, rfl⟩ := Prod.mk.inj (Option.some.inj hfind)
    rw [hnew.1, ite_self] at h
    exact run_insert_conversation hnew h
  · rw [if_neg htype] at h
    obtain ⟨c, cs, r, s₁, rfl, huuid, h⟩ := run_call h
    obtain ⟨rfl, rfl⟩ := Prod.mk.inj (Option.some.inj huuid)
    have hid : create_id auth_uid req (c :: cs) = "g_" ++ c.uuid := if_neg htype
    rw [hid] at hnew ⊢
    exact run_insert_conversation hnew h

/-- Two users can be brought together where their id is new, and theirs are two. -/
theorem exec_create_private {peer : String} (htype : req.type = .PRIVATE)
    (hpeer : req.member_ids = [peer]) (hdiffer : MembersDiffer collate auth_uid req)
    (hnew : s.NewId collate (private_id_of_ auth_uid peer)) :
    ∃ rsp s',
      (CreateConversation cfg auth_uid req).Exec (ConvState.execBy collate i) s (.ok rsp) s' ∧
      ∀ uid ∈ [auth_uid, peer], ∃ m,
        s'.members.find (private_id_of_ auth_uid peer, uid) = some m ∧ m.is_quit = false := by
  obtain ⟨s', rsp, hexec, -, -, hmembers⟩ : ∃ s' rsp,
      (insert_conversation cfg auth_uid (private_id_of_ auth_uid peer) req).Exec
        (ConvState.execBy collate i) s (.ok rsp) s' ∧ _ := exec_insert_conversation hnew hdiffer
  refine ⟨rsp, s', ?_, fun uid huid ↦ ?_⟩
  · rw [CreateConversation, create_error_of_private htype hpeer]
    dsimp only
    rw [if_pos htype, hpeer]
    have hfind : ConvState.execBy collate i (selectConv (private_id_of_ auth_uid peer)) {} s =
        some (none, s) := by
      show some (s.convBy collate (private_id_of_ auth_uid peer), s) = _
      rw [hnew.1]
    exact .call hfind hexec
  · obtain ⟨m, hm, huser, hquit⟩ : ∃ m ∈ new_members auth_uid (private_id_of_ auth_uid peer) 0 req,
        m.user_id = uid ∧ m.is_quit = false := by
      by_cases hself : uid = auth_uid
      · exact ⟨_, List.mem_cons_self, hself.symm, rfl⟩
      · rcases List.mem_cons.1 huid with heq | hmem
        · exact absurd heq hself
        · obtain rfl := List.mem_singleton.1 hmem
          refine ⟨_, List.mem_cons_of_mem _ (List.mem_map_of_mem (List.mem_filter.2 ⟨?_, ?_⟩)), rfl,
            rfl⟩
          · rw [hpeer]
            exact List.mem_singleton_self _
          · exact decide_eq_true hself
    have hkey : m.key = (private_id_of_ auth_uid peer, uid) :=
      Prod.ext (conversation_id_of_mem_new_members hm) huser
    refine ⟨m, ?_, hquit⟩
    rw [← hkey]
    exact ((Table.find_insertAll hmembers).1 m hm).2

/-- And only then. -/
theorem membersDiffer_of_created (herror : create_error req = none)
    (hnew : ∀ cs, s.NewId collate (create_id auth_uid req cs)) {rsp : ConvRsp}
    (h : (CreateConversation cfg auth_uid req).Exec (ConvState.execBy collate i) s (.ok rsp) s') :
    MembersDiffer collate auth_uid req := by
  obtain ⟨cs, hrun⟩ := h.exists_run
  cases run_create herror (hnew cs) hrun with
  | created _ hrows => exact hrows.2

/-- **A call is all or nothing exactly where nothing fails once the conversation is inserted**, and
where two users that are to be brought together have two ids. -/
theorem create_atomic_iff (cfg : ConversationServiceConfig) (collate : String → String) (i : ℕ)
    (auth_uid : String) (req : conversation.CreateConversationReq) (cs : List ConvChoice)
    (s s' : ConvState) (rsp : Except ServiceError ConvRsp)
    (hrun : (CreateConversation cfg auth_uid req).run (ConvState.execBy collate i) cs s =
      some (rsp, s'))
    (hnew : s.NewId collate (create_id auth_uid req cs)) :
    CreateAtomic cfg collate i auth_uid req (create_id auth_uid req cs) rsp s' ↔
      NothingFails collate auth_uid req cs := by
  have hleft (hconv : ¬s'.NewId collate (create_id auth_uid req cs)) (he : ∃ e, rsp = .error e) :
      ¬CreateAtomic cfg collate i auth_uid req (create_id auth_uid req cs) rsp s' :=
    fun hatomic ↦ hconv (hatomic.nothing he)
  cases herror : create_error req with
  | some e =>
    refine iff_of_true ?_ fun hnone ↦ by rw [herror] at hnone; cases hnone
    rw [CreateConversation, herror] at hrun
    obtain ⟨rfl, rfl⟩ := run_ret hrun
    refine ⟨fun _ ↦ hnew, fun _ htype peer hpeer ↦ ?_⟩
    rw [create_error_of_private htype hpeer] at herror
    cases herror
  | none =>
    rw [NothingFails, herror, eq_self, true_imp_iff]
    cases run_create herror hnew hrun with
    | refused hacts =>
      rw [if_neg (ne_true_of_eq_false hacts)]
      -- another call can only succeed where the two users have two ids
      have hid {peer : String} (htype : req.type = .PRIVATE) (hpeer : req.member_ids = [peer])
          (cs : List ConvChoice) : create_id auth_uid req cs = private_id_of_ auth_uid peer := by
        rw [create_id, if_pos htype, hpeer]
        rfl
      refine ⟨fun hatomic htype ↦ ?_, fun hdiffer ↦ ⟨fun _ ↦ hnew, fun _ htype peer hpeer ↦ ?_⟩⟩
      · obtain ⟨peer, hpeer⟩ := peer_of_private htype herror
        obtain ⟨rsp', s'', hexec, -⟩ := hatomic.again ⟨_, rfl⟩ htype peer hpeer
        refine membersDiffer_of_created herror (fun cs' ↦ ?_) hexec
        rw [hid htype hpeer, ← hid htype hpeer cs]
        exact hnew
      · rw [hid htype hpeer] at hnew ⊢
        exact exec_create_private htype hpeer (hdiffer htype) hnew
    | unreported hacts hfault hconv =>
      rw [if_pos hacts]
      refine iff_of_false (hleft hconv ⟨_, rfl⟩) fun h ↦ ?_
      have hok := h.1
      rw [hfault] at hok
      cases hok
    | stranded hacts hrows hconv =>
      rw [if_pos hacts]
      exact iff_of_false (hleft hconv ⟨_, rfl⟩) fun h ↦ hrows h.2
    | created hfault hrows =>
      have hacts : (atInsert cs).acts = true := by
        rw [ConvChoice.acts, hfault]
        rfl
      rw [if_pos hacts]
      refine iff_of_true ⟨?_, ?_⟩ ⟨hfault, hrows⟩
      · rintro ⟨e, he⟩
        cases he
      · rintro ⟨e, he⟩
        cases he

end Create

/-- Alice gathers a group. -/
def gather (member_ids : List String) : Prog ConvOp ConvOp.Res (Except ServiceError ConvRsp) :=
  CreateConversation ⟨""⟩ "alice" { type := .GROUP, member_ids }

/-- Alice gathers a group with Bob, and nothing fails. -/
theorem gather_atomic_iff :
    ∃ rsp s', (gather ["bob"]).run (ConvState.execBy foldCase 0) (List.replicate 7 {}) {} =
        some (rsp, s') ∧
      (CreateAtomic ⟨""⟩ foldCase 0 "alice" { type := .GROUP, member_ids := ["bob"] } "g_" rsp s' ↔
        NothingFails foldCase "alice" { type := .GROUP, member_ids := ["bob"] }
          (List.replicate 7 {})) :=
  ⟨_, _, rfl, create_atomic_iff ⟨""⟩ foldCase 0 "alice" { type := .GROUP, member_ids := ["bob"] }
    (List.replicate 7 {}) {} _ _ rfl ⟨rfl, fun _ h ↦ absurd h List.not_mem_nil⟩⟩

/-- The call for these members fails, and the conversation stays without members. -/
def GatherStrands (member_ids : List String) : Prop :=
  ∃ rsp s', (gather member_ids).run (ConvState.execBy foldCase 0) (List.replicate 5 {}) {} =
      some (rsp, s') ∧ ConvState.NewId foldCase {} "g_" ∧ s'.members.rows = [] ∧
    ¬CreateAtomic ⟨""⟩ foldCase 0 "alice" { type := .GROUP, member_ids } "g_" rsp s'

/-- **Bob is named twice**, or the two names are one to MySQL only. -/
theorem gather_twice : GatherStrands ["bob", "bob"] ∧ GatherStrands ["bob", "BOB"] := by
  have hnew : ConvState.NewId foldCase {} "g_" := ⟨rfl, fun _ h ↦ absurd h List.not_mem_nil⟩
  constructor
  · exact ⟨_, _, rfl, hnew, rfl, fun h ↦ absurd (h.nothing ⟨_, rfl⟩).1 (by decide)⟩
  · exact ⟨_, _, rfl, hnew, rfl, fun h ↦ absurd (h.nothing ⟨_, rfl⟩).1 (by decide)⟩

end ChatNow
