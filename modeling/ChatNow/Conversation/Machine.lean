import ChatNow.Conversation.Handlers
import ChatNow.Lib.Pool
import ChatNow.Lib.Table

/-!
# The conversation service at work

Any number of requests as threads over the two tables (`ConvState`), each transaction one step.

What a step can do to the tables is said once (`ConvMove`), and that every call of a thread is one
of these is `ConvMove.of_exec`. Four of the moves write a whole member row that the thread has read
before (`ConvOp.rewrites`), and one a whole conversation row; the others read under a lock what they
change.

A transaction may fail, and what it was to do may have been committed all the same
(`ConvChoice.acts`). A crash takes a thread away where it stands.
-/

namespace ChatNow

open Prog ConvOp

/-! ### The state -/

/-- The two tables. -/
structure ConvState where
  convs : Table Conversation.conversation_id := .empty
  members : Table ConversationMember.key := .empty
  /-- The conversations whose members have been inserted. -/
  created : List String := []
  /-- The member rows that have been read, by thread. -/
  reads : List (ℕ × ConversationMember) := []
  /-- The requests, by thread, with their users. -/
  requests : List (String × ConvReq) := []
  answers : List (ℕ × Except ServiceError ConvRsp) := []

/-- What the environment decides at a call. -/
structure ConvChoice where
  /-- The transaction fails. -/
  fault : Bool := false
  /-- Its effect takes place all the same. -/
  late : Bool := false
  /-- The clock. -/
  now : ℤ := 0
  /-- `uuid`. -/
  uuid : String := ""

/-- The effect of the transaction takes place. -/
def ConvChoice.acts (c : ConvChoice) : Bool := !c.fault || c.late

/-- The row with another count. -/
def Conversation.counted (c : Conversation) (delta now : ℤ) : Conversation :=
  { c with member_count := max (c.member_count + delta) 0, update_time := now }

namespace ConvState

variable (s : ConvState)

/-- `_update_session_member_count`; `none` when there is no such conversation. -/
def count (cid : String) (delta now : ℤ) : Option (Table Conversation.conversation_id) :=
  (s.convs.find cid).map fun c ↦ s.convs.write (c.counted delta now)

/-- The commit of a full-row update of a member. -/
def writeMember (m : ConversationMember) : Option ConvState :=
  (s.members.find m.key).map fun _ ↦ { s with members := s.members.write m }

/-- And of one that changes the count as well. -/
def writeCounted (m : ConversationMember) (delta now : ℤ) : Option ConvState :=
  (s.writeMember m).bind fun s' ↦
    (s.count m.conversation_id delta now).map fun convs ↦ { s' with convs := convs }

/-- `append` of one row. -/
def appendMember (m : ConversationMember) (now : ℤ) : Option ConvState :=
  (s.members.insert m).bind fun members ↦
    (s.count m.conversation_id 1 now).map fun convs ↦
      { s with members := members, convs := convs }

/-- `append_after_create`. -/
def appendRows (rows : List ConversationMember) : Option ConvState :=
  (s.members.insertAll rows).map fun members ↦
    { s with members := members, created := rows.map (·.conversation_id) ++ s.created }

/-- The rows of the old owner and of the new one are exchanged. -/
def exchange (m1 m2 : ConversationMember) : Table ConversationMember.key :=
  (s.members.write { m1 with role := .ADMIN }).write { m2 with role := .OWNER }

/-- `transfer_owner`, and whether it succeeds. When there is no conversation it has written the
members' rows all the same. -/
def transfer (cid old_owner_id new_owner_id : String) : Bool × ConvState :=
  match s.members.find (cid, old_owner_id), s.members.find (cid, new_owner_id) with
  | some m1, some m2 =>
    if m2.is_quit ∨ m1.role ≠ .OWNER then (false, s)
    else
      match s.convs.find cid with
      | none => (false, { s with members := s.exchange m1 m2 })
      | some c =>
        (true,
          { s with
            members := s.exchange m1 m2
            convs := s.convs.write { c with owner_id := some new_owner_id } })
  | _, _ => (false, s)

/-- `_atomic_advance_seq`. -/
def advance (cid uid : String) (f : ConversationMember → ConversationMember) : ConvState :=
  match s.members.find (cid, uid) with
  | none => s
  | some m => { s with members := s.members.write (f m) }

/-- A member row is read, by thread `i`. -/
def readMember (i : ℕ) (m : Option ConversationMember) : Option ConversationMember × ConvState :=
  (m, { s with reads := m.toList.map (i, ·) ++ s.reads })

/-- What a transaction makes of the state when it succeeds, under the choice of the environment. -/
def commit (c : ConvChoice) (next : Option ConvState) : Bool × ConvState :=
  match next with
  | none => (false, s)
  | some s' => (!c.fault, if c.acts then s' else s)

/-- The effect of a call by thread `i`. -/
def exec (i : ℕ) : (o : ConvOp) → ConvChoice → ConvState → Option (o.Res × ConvState)
  | clock, c, s => some (c.now, s)
  | uuid, c, s => some (c.uuid, s)
  | selectConv cid, c, s => some (if c.fault then none else s.convs.find cid, s)
  | insertConv row, c, s =>
    some (s.commit c ((s.convs.insert row).map fun convs ↦ { s with convs := convs }))
  | updateConv row, c, s =>
    some (s.commit c ((s.convs.find row.conversation_id).map fun _ ↦
      { s with convs := s.convs.write row }))
  | selectMember cid uid, c, s =>
    some (if c.fault then (none, s) else s.readMember i (s.members.find (cid, uid)))
  | .members cid, c, s =>
    some (if c.fault then [] else (s.members.rows.filter fun m ↦
      m.conversation_id = cid && !m.is_quit).map (·.user_id), s)
  | append m, c, s => some (s.commit c (s.appendMember m c.now))
  | appendAfterCreate rows, c, s => some (s.commit c (s.appendRows rows))
  | updateMember m, c, s => some (s.commit c (s.writeMember m))
  | writeRole m, c, s => some (s.commit c (s.writeMember m))
  | writeQuit m, c, s => some (s.commit c (s.writeCounted m (-1) c.now))
  | writeRejoin m, c, s => some (s.commit c (s.writeCounted m 1 c.now))
  | transferOwner cid old_owner_id new_owner_id, c, s =>
    let r := s.transfer cid old_owner_id new_owner_id
    some (r.1 && !c.fault, if c.acts then r.2 else s)
  | updateLastReadSeq cid uid new_seq, c, s =>
    some (!c.fault, if c.acts then s.advance cid uid fun m ↦
      { m with last_read_seq := max m.last_read_seq new_seq } else s)
  | updateLastAckSeq cid uid new_seq, c, s =>
    some (!c.fault, if c.acts then s.advance cid uid fun m ↦
      { m with last_ack_seq := max m.last_ack_seq new_seq } else s)
  | invalidate _, _, s => some ((), s)
  | esWrite _, _, s => some ((), s)
  | respond rsp, _, s => some ((), { s with answers := (i, rsp) :: s.answers })

end ConvState

/-- What can happen beside the calls. -/
inductive ConvEv
  /-- A request of a user arrives. -/
  | arrive (auth_uid : String) (req : ConvReq)
  /-- A thread is gone. -/
  | crash (i : ℕ)

abbrev ConvPool := Pool ConvOp ConvOp.Res ConvState

/-- The effect of an event. -/
def ConvState.env (cfg : ConversationServiceConfig) : ConvEv → ConvPool → Option ConvPool
  | .arrive auth_uid req, p =>
    some ⟨p.threads ++ [handle_rpc cfg auth_uid req],
      { p.shared with requests := p.shared.requests ++ [(auth_uid, req)] }⟩
  | .crash i, p => some ⟨p.threads.set i (.ret ()), p.shared⟩

/-- The conversation service. -/
def conversationService (cfg : ConversationServiceConfig) :
    Machine ConvOp ConvOp.Res ConvState ConvChoice ConvEv :=
  ⟨ConvState.exec, ConvState.env cfg⟩

/-! ### What a step can do to the tables -/

/-- The cursors of a member are advanced. -/
structure ConversationMember.Advances (m m' : ConversationMember) : Prop where
  same : { m' with last_read_seq := m.last_read_seq, last_ack_seq := m.last_ack_seq } = m
  read : m.last_read_seq ≤ m'.last_read_seq
  ack : m.last_ack_seq ≤ m'.last_ack_seq

namespace ConversationMember.Advances

variable {m m' : ConversationMember} (h : m.Advances m')

include h

theorem key : m'.key = m.key := by
  have hkey := congrArg ConversationMember.key h.same
  exact hkey

theorem role : m'.role = m.role := by
  have hrole := congrArg ConversationMember.role h.same
  exact hrole

theorem is_quit : m'.is_quit = m.is_quit := by
  have hquit := congrArg ConversationMember.is_quit h.same
  exact hquit

end ConversationMember.Advances

/-- The tables after a call, under the choice of the environment. -/
inductive ConvMove (s : ConvState) (ch : ConvChoice) : ConvOp → ConvState → Prop
  /-- They are as before. -/
  | stay {o : ConvOp} {s' : ConvState} (hconvs : s'.convs = s.convs)
    (hmembers : s'.members = s.members) (hcreated : s'.created = s.created) : ConvMove s ch o s'
  /-- A conversation is new. -/
  | found {c : Conversation} {convs : Table Conversation.conversation_id}
    (h : s.convs.insert c = some convs) : ConvMove s ch (insertConv c) { s with convs := convs }
  /-- A conversation is written back. -/
  | restore {c c₀ : Conversation} (hacts : ch.acts = true)
    (h : s.convs.find c.conversation_id = some c₀) :
    ConvMove s ch (updateConv c) { s with convs := s.convs.write c }
  /-- The members of a new conversation are inserted. -/
  | people {rows : List ConversationMember} {members : Table ConversationMember.key}
    (h : s.members.insertAll rows = some members) :
    ConvMove s ch (appendAfterCreate rows)
      { s with members := members, created := rows.map (·.conversation_id) ++ s.created }
  /-- A member is new. -/
  | join {m : ConversationMember} {members : Table ConversationMember.key} {c : Conversation}
    (h : s.members.insert m = some members) (hc : s.convs.find m.conversation_id = some c) :
    ConvMove s ch (append m)
      { s with members := members, convs := s.convs.write (c.counted 1 ch.now) }
  /-- A member is written back. -/
  | rewrite {o : ConvOp} {m m₀ : ConversationMember} (hacts : ch.acts = true)
    (ho : o.rewrites = some m) (h : s.members.find m.key = some m₀) (hdelta : o.delta = 0) :
    ConvMove s ch o { s with members := s.members.write m }
  /-- A member is written back, and the count with it. -/
  | recount {o : ConvOp} {m m₀ : ConversationMember} {c : Conversation} (hacts : ch.acts = true)
    (ho : o.rewrites = some m) (h : s.members.find m.key = some m₀) (hdelta : o.delta ≠ 0)
    (hc : s.convs.find m.conversation_id = some c) :
    ConvMove s ch o
      { s with members := s.members.write m, convs := s.convs.write (c.counted o.delta ch.now) }
  /-- The owner is another. -/
  | transfer {cid old_owner_id new_owner_id : String} {m1 m2 : ConversationMember}
    {c : Conversation} (hacts : ch.acts = true) (h1 : s.members.find (cid, old_owner_id) = some m1)
    (h2 : s.members.find (cid, new_owner_id) = some m2) (hquit : m2.is_quit = false)
    (hrole : m1.role = .OWNER) (hc : s.convs.find cid = some c) :
    ConvMove s ch (transferOwner cid old_owner_id new_owner_id)
      { s with
        members := s.exchange m1 m2
        convs := s.convs.write { c with owner_id := some new_owner_id } }
  /-- The owner of a conversation that there is not is another. -/
  | half {cid old_owner_id new_owner_id : String} {m1 m2 : ConversationMember}
    (h1 : s.members.find (cid, old_owner_id) = some m1)
    (h2 : s.members.find (cid, new_owner_id) = some m2) (hc : s.convs.find cid = none) :
    ConvMove s ch (transferOwner cid old_owner_id new_owner_id)
      { s with members := s.exchange m1 m2 }
  /-- A cursor is advanced. -/
  | advance {o : ConvOp} {m₀ m : ConversationMember} (h : s.members.find m₀.key = some m₀)
    (hadv : m₀.Advances m) (ho : o.rewrites = none) :
    ConvMove s ch o { s with members := s.members.write m }

namespace ConvMove

variable {s s' : ConvState} {i : ℕ} {o : ConvOp} {ch : ConvChoice}

theorem refl (s : ConvState) (ch : ConvChoice) (o : ConvOp) : ConvMove s ch o s :=
  .stay rfl rfl rfl

/-- A transaction leaves the tables or does what it is to do. -/
theorem of_commit {next : Option ConvState} {r : Bool} (hx : s.commit ch next = (r, s'))
    (hnext : ∀ s₁, ch.acts = true → next = some s₁ → ConvMove s ch o s₁) : ConvMove s ch o s' := by
  cases hn : next with
  | none =>
    rw [hn] at hx
    obtain ⟨-, rfl⟩ := Prod.mk.inj hx
    exact .refl s ch o
  | some s₁ =>
    rw [hn] at hx
    obtain ⟨-, rfl⟩ := Prod.mk.inj hx
    split
    · next hacts => exact hnext s₁ hacts hn
    · exact .refl s ch o

theorem of_writeMember {m : ConversationMember} (hacts : ch.acts = true)
    (ho : o.rewrites = some m) (hdelta : o.delta = 0) {s₁ : ConvState}
    (h : s.writeMember m = some s₁) : ConvMove s ch o s₁ := by
  obtain ⟨m₀, hm₀, rfl⟩ := Option.map_eq_some_iff.1 h
  exact .rewrite hacts ho hm₀ hdelta

theorem of_writeCounted {m : ConversationMember} {delta : ℤ} {s₁ : ConvState}
    (hacts : ch.acts = true) (ho : o.rewrites = some m)
    (h : s.writeCounted m delta ch.now = some s₁) (hdelta : o.delta = delta) (hne : delta ≠ 0) :
    ConvMove s ch o s₁ := by
  obtain ⟨s₂, hs₂, h⟩ := Option.bind_eq_some_iff.1 h
  obtain ⟨m₀, hm₀, rfl⟩ := Option.map_eq_some_iff.1 hs₂
  obtain ⟨convs, hcount, rfl⟩ := Option.map_eq_some_iff.1 h
  obtain ⟨row, hrow, rfl⟩ := Option.map_eq_some_iff.1 hcount
  subst hdelta
  exact .recount hacts ho hm₀ hne hrow

theorem of_advance {cid uid : String} {f : ConversationMember → ConversationMember}
    (ho : o.rewrites = none) (hf : ∀ m : ConversationMember, m.Advances (f m)) :
    ConvMove s ch o (s.advance cid uid f) := by
  unfold ConvState.advance
  split
  · exact .refl s ch o
  · next m hm =>
    have hkey : m.key = (cid, uid) := Table.key_of_find hm
    exact .advance (hkey ▸ hm) (hf m) ho

theorem of_transfer {cid old_owner_id new_owner_id : String} (hacts : ch.acts = true) :
    ConvMove s ch (transferOwner cid old_owner_id new_owner_id)
      (s.transfer cid old_owner_id new_owner_id).2 := by
  unfold ConvState.transfer
  split
  · next m1 m2 h1 h2 =>
    split
    · exact .refl s ch _
    · next hok =>
      obtain ⟨hquit, hrole⟩ := not_or.1 hok
      cases hc : s.convs.find cid with
      | none => exact .half h1 h2 hc
      | some c => exact .transfer hacts h1 h2 (Bool.eq_false_iff.2 hquit) (not_not.1 hrole) hc
  · exact .refl s ch _

end ConvMove

/-- **Every call of a thread** is one of the moves. -/
theorem ConvMove.of_exec {s s' : ConvState} {i : ℕ} {o : ConvOp} {ch : ConvChoice} {r : o.Res}
    (hx : s.exec i o ch = some (r, s')) : ConvMove s ch o s' := by
  cases o with
  | insertConv row =>
    refine .of_commit (Option.some.inj hx) fun s₁ _ h ↦ ?_
    obtain ⟨convs, hinsert, rfl⟩ := Option.map_eq_some_iff.1 h
    exact .found hinsert
  | updateConv row =>
    refine .of_commit (Option.some.inj hx) fun s₁ hacts h ↦ ?_
    obtain ⟨c₀, hc₀, rfl⟩ := Option.map_eq_some_iff.1 h
    exact .restore hacts hc₀
  | append m =>
    refine .of_commit (Option.some.inj hx) fun s₁ _ h ↦ ?_
    obtain ⟨rows, hinsert, h⟩ := Option.bind_eq_some_iff.1 h
    obtain ⟨convs, hcount, rfl⟩ := Option.map_eq_some_iff.1 h
    obtain ⟨row, hrow, rfl⟩ := Option.map_eq_some_iff.1 hcount
    exact .join hinsert hrow
  | appendAfterCreate rows =>
    refine .of_commit (Option.some.inj hx) fun s₁ _ h ↦ ?_
    obtain ⟨table, hinsert, rfl⟩ := Option.map_eq_some_iff.1 h
    exact .people hinsert
  | updateMember m =>
    exact .of_commit (Option.some.inj hx) fun _ hacts h ↦ .of_writeMember hacts rfl rfl h
  | writeRole m =>
    exact .of_commit (Option.some.inj hx) fun _ hacts h ↦ .of_writeMember hacts rfl rfl h
  | writeQuit m =>
    exact .of_commit (Option.some.inj hx) fun _ hacts h ↦
      .of_writeCounted hacts rfl h rfl (by decide)
  | writeRejoin m =>
    exact .of_commit (Option.some.inj hx) fun _ hacts h ↦
      .of_writeCounted hacts rfl h rfl (by decide)
  | transferOwner cid old_owner_id new_owner_id =>
    obtain ⟨-, rfl⟩ := Prod.mk.inj (Option.some.inj hx)
    split
    · next hacts => exact .of_transfer hacts
    · exact .refl s ch _
  | updateLastReadSeq cid uid new_seq =>
    obtain ⟨-, rfl⟩ := Prod.mk.inj (Option.some.inj hx)
    split
    · exact .of_advance rfl fun m ↦ ⟨rfl, Nat.le_max_left _ _, Nat.le_refl _⟩
    · exact .refl s ch _
  | updateLastAckSeq cid uid new_seq =>
    obtain ⟨-, rfl⟩ := Prod.mk.inj (Option.some.inj hx)
    split
    · exact .of_advance rfl fun m ↦ ⟨rfl, Nat.le_refl _, Nat.le_max_left _ _⟩
    · exact .refl s ch _
  | selectMember cid uid =>
    have hx' := Option.some.inj hx
    split at hx' <;>
    · obtain ⟨-, rfl⟩ := Prod.mk.inj hx'
      exact .stay rfl rfl rfl
  | _ =>
    obtain ⟨-, rfl⟩ := Prod.mk.inj (Option.some.inj hx)
    exact .stay rfl rfl rfl

/-! ### What the queries find -/

namespace ConvState

variable {s s' : ConvState} {i : ℕ} {ch : ConvChoice}

theorem find_of_selectMember {cid uid : String} {m : ConversationMember}
    (hx : s.exec i (selectMember cid uid) ch = some (some m, s')) :
    s.members.find (cid, uid) = some m := by
  have hx' := Option.some.inj hx
  split at hx'
  · cases (Prod.mk.inj hx').1
  · exact (Prod.mk.inj hx').1

theorem find_of_selectConv {cid : String} {c : Conversation}
    (hx : s.exec i (selectConv cid) ch = some (some c, s')) : s.convs.find cid = some c := by
  have hx' := (Prod.mk.inj (Option.some.inj hx)).1
  split at hx'
  · cases hx'
  · exact hx'

/-- Whoever is told that a conversation has been inserted has inserted it. -/
theorem find_of_insertConv {c : Conversation}
    (hx : s.exec i (insertConv c) ch = some (true, s')) :
    s.convs.find c.conversation_id = none ∧ s'.convs.find c.conversation_id = some c := by
  have hx' := Option.some.inj hx
  cases hinsert : s.convs.insert c with
  | none =>
    rw [hinsert] at hx'
    cases (Prod.mk.inj hx').1
  | some convs =>
    rw [hinsert] at hx'
    obtain ⟨hfault, rfl⟩ := Prod.mk.inj hx'
    have hacts : ch.acts = true := by
      rw [ConvChoice.acts, hfault, Bool.true_or]
    refine ⟨(Table.rows_of_insert hinsert).1, ?_⟩
    rw [if_pos hacts, Table.find_insert hinsert, if_pos rfl]

end ConvState

end ChatNow
