import ChatNow.Conversation.Count
import ChatNow.Members.Listing
import ChatNow.Pipeline.Machine
import ChatNow.Transmite.Publishing

/-!
# The conversation service, the members cache and SendMessage as one machine

What a `SendMessage` request finds among the members of a conversation comes from the database of
the conversation service through two caches. Here the three meet: the tables and the RPCs of the
conversation service, the members cache as it is in `Members/Machine`, and the message exchange.

* A `SendMessage` request runs on one of the Transmite instances. Its member lookups are the program
  `resolve_members` of that instance, call by call (`PipeOp.program`).
* Every transaction of the conversation service that changes who is a member changes the membership
  that the cache is about (`MemState.follow`), and `Members::invalidate` settles all that has been
  committed before it (`MemState.invalidated`). `GetMemberIds` calls are threads of their own, and
  keys and entries expire at any time.
* What the consumers make of a message is not looked at, as they write to none of this.

The memberships of the cache are those of the tables in every run (`cacheInv_of_reach`).
-/

namespace ChatNow

open Prog

/-! ### The machine -/

/-- The operations of the conversation service, of the members cache and of `SendMessage`. -/
inductive ChatOp
  | conv (o : ConvOp)
  | mem (o : MemOp)
  | send (o : PipeOp)

/-- What each operation answers. -/
@[reducible]
def ChatOp.Res : ChatOp → Type
  | conv o => o.Res
  | mem o => o.Res
  | send o => o.Res

/-- A request, with its user and, for a message, the instance of Transmite. -/
inductive ChatReq
  | conv (auth_uid : String) (req : ConvReq)
  | getMemberIds (auth_user ssid : String)
  | send (inst : ℕ) (uid : String) (req : SendMessageReq)

/-- The conversation that a request dismisses. -/
def ConvReq.dismissed : ConvReq → Option String
  | dismiss cid => some cid
  | _ => none

/-- And that of a request to any service. -/
def ChatReq.dismissed : ChatReq → Option String
  | conv _ req => req.dismissed
  | _ => none

/-- Who sends a message, and to which conversation. -/
def ChatReq.message : ChatReq → Option (String × String)
  | send _ uid req => some (uid, req.conversation_id)
  | _ => none

/-- The tables, the members cache, the stores behind `SendMessage`, and what happened. -/
structure ChatState where
  conv : ConvState := {}
  mem : MemState := {}
  pipe : Pipe := {}
  /-- The requests, by thread. -/
  calls : List ChatReq := []
  /-- The threads that have read the row of a conversation, as long as it has not been written as
  that of a dismissed one since. -/
  fresh : List (ℕ × String) := []
  /-- The messages that have arrived when the dismissal of their conversation had been answered: the
  thread, the sender and the conversation. -/
  late : List (ℕ × String × String) := []

/-- What the environment decides at a call. -/
structure ChatChoice where
  conv : ConvChoice := {}
  mem : MemChoice := {}
  /-- A command of the members cache whose reply is lost takes effect all the same. -/
  late : Bool := false
  send : Choice := {}

/-- The members of a conversation. -/
def ConvState.membership (s : ConvState) (cid : String) : Finset String :=
  ((s.members.rows.filter (·.activeOf cid)).map (·.user_id)).toFinset

/-- The membership is another one now, if it is. -/
def Conv.follow (c : Conv) (members : Finset String) : Conv :=
  if c.db.current = members then c else c.commit members

namespace MemState

/-- The memberships are those of the tables. -/
def follow (m : MemState) (s : ConvState) : MemState :=
  { m with convs := fun cid ↦ (m.convs cid).follow (s.membership cid) }

/-- `Members::invalidate`, after all that has been committed so far. -/
def invalidated (m : MemState) (cid : String) (c : MemChoice) : MemState :=
  if c.fault then m
  else
    match (m.convs cid).invalidate (m.convs cid).db.now with
    | some conv => m.setConv cid conv
    | none => m

end MemState

namespace ChatState

variable (s : ChatState)

/-- The members cache after a call to the conversation service. -/
def cached (c : MemChoice) (conv : ConvState) : ConvOp → MemState
  | .invalidate cid => s.mem.invalidated cid c
  | _ => s.mem.follow conv

/-- The fresh reads after a call of thread `i` to the conversation service. -/
def refresh (i : ℕ) (acts : Bool) : (o : ConvOp) → o.Res → List (ℕ × String)
  | .selectConv cid, some _ => (i, cid) :: s.fresh
  | .updateConv c, _ =>
    if acts ∧ c.status = .DISMISSED then s.fresh.filter (·.2 ≠ c.conversation_id) else s.fresh
  | _, _ => s.fresh

/-- The effect of a call by thread `i`. -/
def exec (collate : String → String) (i : ℕ) :
    (o : ChatOp) → ChatChoice → ChatState → Option (o.Res × ChatState)
  | .conv o, c, s =>
    (s.conv.exec i o c.conv).map fun x ↦
      (x.1, { s with
        conv := x.2, mem := s.cached c.mem x.2 o, fresh := s.refresh i c.conv.acts o x.1 })
  | .mem o, c, s =>
    (MemState.effect i o c.mem c.late s.mem).map fun x ↦ (x.1, { s with mem := x.2 })
  | .send o, c, s =>
    (Pipe.exec collate i o c.send s.pipe).map fun x ↦ (x.1, { s with pipe := x.2 })

/-- Whoever has asked for the dismissal of the conversation has been told of its success, after the
cache of its members has been invalidated. -/
def HasDismissed (cid : String) : Prop :=
  ∃ x ∈ s.conv.answers, x.2.isOk = true ∧ s.calls[x.1]?.bind ChatReq.dismissed = some cid

instance (cid : String) : Decidable (s.HasDismissed cid) :=
  inferInstanceAs (Decidable (∃ x ∈ s.conv.answers, _))

/-- A request arrives. -/
def arrive (req : ChatReq) : ChatState :=
  { s with
    calls := s.calls ++ [req]
    late := (req.message.toList.filter fun x ↦ s.HasDismissed x.2).map (s.calls.length, ·) ++
      s.late }

end ChatState

/-- What can happen beside the calls. -/
inductive ChatEv
  /-- A request arrives. -/
  | arrive (req : ChatReq)
  /-- The broker receives the `n`-th publish. -/
  | receive (n : ℕ)
  /-- A thread is gone. -/
  | crash (i : ℕ)
  /-- The members key of a conversation expires. -/
  | expireMembers (ssid : String)
  /-- Its sentinel expires. -/
  | expireSentinel (ssid : String)
  /-- An L1 entry expires or is evicted. -/
  | evict (inst : ℕ) (ssid : String)

/-- The services. -/
structure ChatConfig where
  conversation : ConversationServiceConfig
  transmite : TransmiteConfig := {}
  /-- How the instances of Transmite are built. -/
  members : ℕ → MembersConfig := fun _ ↦ {}
  /-- How the database compares texts. -/
  collate : String → String := id

/-- The program of an operation of `SendMessage`: a member lookup is one, everything else is one
call. -/
def PipeOp.program (cfg : MembersConfig) (inst : ℕ) :
    (o : PipeOp) → Prog ChatOp ChatOp.Res o.Res
  | .resolveMembers ssid => (resolve_members cfg inst ssid).lift ChatOp.mem
  | o => op (ChatOp.send o)

/-- What runs for a request. -/
def ChatReq.handler (cfg : ChatConfig) : ChatReq → Prog ChatOp ChatOp.Res Unit
  | conv auth_uid req => (handle_rpc cfg.conversation auth_uid req).lift ChatOp.conv
  | getMemberIds auth_user ssid => (GetMemberIds auth_user ssid []).lift ChatOp.mem
  | send inst uid req =>
    (SendMessage cfg.transmite (.ok uid) req).implement (PipeOp.program (cfg.members inst) inst)

abbrev ChatPool := Pool ChatOp ChatOp.Res ChatState

/-- The effect of an event. -/
def ChatState.env (cfg : ChatConfig) : ChatEv → ChatPool → Option ChatPool
  | .arrive req, p => some ⟨p.threads ++ [req.handler cfg], p.shared.arrive req⟩
  | .receive n, p =>
    (Pipe.env {} (.receive n) ⟨[], p.shared.pipe⟩).map fun q ↦
      ⟨p.threads, { p.shared with pipe := q.shared }⟩
  | .crash i, p => some ⟨p.threads.set i (.ret ()), p.shared⟩
  | .expireMembers ssid, p =>
    let m := p.shared.mem
    some ⟨p.threads, { p.shared with mem := m.setConv ssid { m.convs ssid with members := ∅ } }⟩
  | .expireSentinel ssid, p =>
    let m := p.shared.mem
    some ⟨p.threads,
      { p.shared with mem := m.setConv ssid { m.convs ssid with sentinel := false } }⟩
  | .evict inst ssid, p =>
    some ⟨p.threads, { p.shared with mem := p.shared.mem.setLocal inst ssid none }⟩

/-- The conversation service and Transmite. -/
def chatService (cfg : ChatConfig) : Machine ChatOp ChatOp.Res ChatState ChatChoice ChatEv :=
  ⟨ChatState.exec cfg.collate, ChatState.env cfg⟩

/-! ### What the requests know -/

/-- The answer by which a request knows that it has dismissed its conversation. -/
def ConvReq.dismisses (req : ConvReq) : (o : ConvOp) → o.Res → Bool
  | .updateConv c, ok =>
    ok && decide (c.status = .DISMISSED ∧ req.dismissed = some c.conversation_id)
  | _, _ => false

/-- Whoever says that a conversation is dismissed knows it. -/
def dismissContract (req : ConvReq) : Contract ConvOp ConvOp.Res Bool where
  allowed done o := req.dismissed ≠ none → ∀ rsp, o = .respond (.ok rsp) → done = true
  admits _ o r := ConvCall.admits o r
  next done o r := done || req.dismisses o r

/-- The members that are found. -/
def found : Reply MembersResult → List String
  | .ok result => result.members
  | .thrown => []

/-- Whether the user is among the members that have been found last. -/
def listed (uid : String) : Bool → (o : PipeOp) → o.Res → Bool
  | _, .resolveMembers _, reply => decide (uid ∈ found reply)
  | before, _, _ => before

/-- The members that are looked up are those of the conversation, and a message is published only
when its sender is one of them. -/
def listedContract (uid ssid : String) : Contract PipeOp PipeOp.Res Bool where
  allowed found o := (∀ c, o = .resolveMembers c → c = ssid) ∧
    ∀ msg, o = .publishConfirm msg → found = true
  admits _ _ _ := True
  next := listed uid

/-- One of the answers that the lookups have come to names the user. -/
def FoundAmong (uid : String) (phases : List ReadPhase) : Prop :=
  ∃ ph ∈ phases, ∃ uids, ph.answer = some uids ∧ uid ∈ uids

/-- A thread: its request, and what it has found out. -/
inductive ChatCall
  /-- What it has read and written, and whether it has dismissed its conversation. -/
  | conv (auth_uid : String) (req : ConvReq) (t : ConvCall) (done : Bool)
  /-- What it has in hand. -/
  | getMemberIds (auth_user ssid : String) (phases : List ReadPhase)
  /-- What its lookups have in hand. -/
  | send (inst : ℕ) (uid : String) (req : SendMessageReq) (phases : List ReadPhase)

namespace ChatCall

/-- The request of the thread. -/
def request : ChatCall → ChatReq
  | conv auth_uid req _ _ => .conv auth_uid req
  | getMemberIds auth_user ssid _ => .getMemberIds auth_user ssid
  | send inst uid req _ => .send inst uid req

/-- What a thread may do. -/
def allowed : ChatCall → ChatOp → Prop
  | conv _ req t done, .conv o => (convContract.prod (dismissContract req)).allowed (t, done) o
  | getMemberIds _ ssid phases, .mem o =>
    ((readContract false ssid []).restart .idle).allowed phases o
  | send _ _ req phases, .mem o =>
    ((readContract true req.conversation_id []).restart .idle).allowed phases o
  | send _ uid _ phases, .send o => ∀ msg, o = .publishConfirm msg → FoundAmong uid phases
  | _, _ => False

/-- What it may get. -/
def admits : ChatCall → (o : ChatOp) → o.Res → Prop
  | conv _ _ _ _, .conv o, r => ConvCall.admits o r
  | _, _, _ => True

/-- What it knows after an answer. -/
def next : ChatCall → (o : ChatOp) → o.Res → ChatCall
  | conv auth_uid req t done, .conv o, r =>
    conv auth_uid req (t.next o r) (done || req.dismisses o r)
  | getMemberIds auth_user ssid phases, .mem o, r =>
    getMemberIds auth_user ssid (((readContract false ssid []).restart .idle).next phases o r)
  | send inst uid req phases, .mem o, r =>
    send inst uid req
      (((readContract true req.conversation_id []).restart .idle).next phases o r)
  | t, _, _ => t

end ChatCall

/-- What the threads do. -/
def chatContract : Contract ChatOp ChatOp.Res ChatCall where
  allowed := ChatCall.allowed
  admits := ChatCall.admits
  next := ChatCall.next

/-- It has done nothing yet. -/
def ChatReq.start : ChatReq → ChatCall
  | conv auth_uid req => .conv auth_uid req ⟨auth_uid, req, none, none, [], none⟩ false
  | getMemberIds auth_user ssid => .getMemberIds auth_user ssid [.idle]
  | send inst uid req => .send inst uid req [.idle]

/-! ### The requests keep to it -/

section Meets

variable {cfg : ConversationServiceConfig} {auth_uid : String} {α : Type}

@[simp] theorem dismissContract_allowed {req : ConvReq} {done : Bool} {o : ConvOp} :
    (dismissContract req).allowed done o ↔
      (req.dismissed ≠ none → ∀ rsp, o = .respond (.ok rsp) → done = true) := Iff.rfl

/-- A request that dismisses nothing. -/
theorem dismiss_meets_of_none {req : ConvReq} (h : req.dismissed = none) (q : ConvM α) :
    q.Meets (dismissContract req) false fun _ _ ↦ True :=
  .of_allowed fun _ _ hreq ↦ absurd h hreq

theorem role_of_dismisses {req : ConvReq} (cid uid : String) :
    (role_of_ cid uid).Meets (dismissContract req) false fun done _ ↦ done = false := by
  refine meets_op_bind.2 ⟨by simp, fun m _ ↦ ?_⟩
  cases m with
  | none => rfl
  | some m =>
    show Prog.Meets _ (if m.is_quit then _ else _) _ _
    split <;> rfl

/-- Who is told that the status has been set has set it. -/
theorem update_status_dismisses (cid : String) :
    (ConversationTable.update_status cid .DISMISSED).Meets (dismissContract (.dismiss cid)) false
      fun done ok ↦ ok = true → done = true := by
  refine meets_op_bind.2 ⟨by simp, fun c hc ↦ ?_⟩
  cases c with
  | none => exact fun h ↦ absurd h Bool.false_ne_true
  | some c =>
    have hcid : c.conversation_id = cid := hc
    refine meets_op_bind.2 ⟨by simp, fun now _ ↦ ⟨by simp, fun ok _ ↦ ?_⟩⟩
    rintro rfl
    show decide (ConversationStatus.DISMISSED = .DISMISSED ∧ some cid = some c.conversation_id) =
      true
    exact decide_eq_true ⟨rfl, congrArg some hcid.symm⟩

theorem DismissConversation_dismisses (cid : String) :
    (DismissConversation auth_uid cid).Meets (dismissContract (.dismiss cid)) false
      fun done rsp ↦ ∀ v, rsp = .ok v → done = true := by
  refine (role_of_dismisses cid auth_uid).bind fun _ role hdone ↦ ?_
  subst hdone
  split
  · exact fun _ h ↦ nomatch h
  · refine (update_status_dismisses cid).bind fun done ok hdone ↦ ?_
    cases ok with
    | false => exact fun _ h ↦ nomatch h
    | true =>
      obtain rfl := hdone rfl
      exact ⟨by simp, fun _ _ ↦ ⟨by simp, fun _ _ ↦ fun _ _ ↦ rfl⟩⟩

theorem handle_rpc_dismisses (req : ConvReq) :
    (handle_rpc cfg auth_uid req).Meets (dismissContract req) false fun _ _ ↦ True := by
  cases req with
  | dismiss cid =>
    refine (DismissConversation_dismisses cid).bind fun done rsp h ↦ ?_
    refine ⟨fun _ v hv ↦ h v ?_, fun _ _ ↦ trivial⟩
    exact ConvOp.respond.inj hv
  | _ => exact dismiss_meets_of_none rfl _

/-! A message. -/

variable {config : TransmiteConfig}

/-- A message is published only when its sender has been found. -/
theorem SendMessage_listed (uid : String) (request : SendMessageReq) :
    (SendMessage config (.ok uid) request).Meets (listedContract uid request.conversation_id) false
      fun _ _ ↦ True := by
  refine sendMessage_meets_of_ignores ⟨?_, fun _ o _ hquiet ↦ ?_⟩ ?_ ?_
  · rintro _ _ hquiet
    refine ⟨?_, ?_⟩ <;>
    · rintro _ rfl
      exact absurd hquiet Bool.false_ne_true
  · cases o with
    | resolveMembers => exact absurd hquiet Bool.false_ne_true
    | _ => rfl
  · refine fun _ ↦ ⟨?_, ?_⟩
    · rintro _ ⟨⟩
      rfl
    · rintro _ ⟨⟩
  · rintro _ result msg hmem - -
    refine ⟨?_, ?_⟩
    · rintro _ ⟨⟩
    · rintro _ -
      exact decide_eq_true hmem

/-- A member lookup that finds the sender has come to an answer that names it. -/
theorem resolve_members_answers (cfg : MembersConfig) (inst : ℕ) (uid : String)
    (req : SendMessageReq) {phases : List ReadPhase} (hidle : .idle ∈ phases) :
    ((resolve_members cfg inst req.conversation_id).lift ChatOp.mem).Meets chatContract
      (.send inst uid req phases) fun t reply ↦ ∃ phases', t = .send inst uid req phases' ∧
        .idle ∈ phases' ∧ (uid ∈ found reply → FoundAmong uid phases') := by
  have hmeets : (resolve_members cfg inst req.conversation_id).Meets
      (readContract true req.conversation_id []) .idle fun ph reply ↦ ph.Returns reply :=
    resolve_members_meets cfg inst
  have h := (hmeets.restart_again hidle).map (D := chatContract.comap ChatOp.mem)
    (ChatCall.send inst uid req) (fun _ _ ha ↦ ha) (fun _ _ _ _ _ _ ↦ trivial) fun _ _ _ ↦ rfl
  refine Meets.lift (h.mono fun t reply hpost ↦ ?_)
  obtain ⟨phases', rfl, ⟨ph, hph, hreturns⟩, hidle'⟩ := hpost
  refine ⟨phases', rfl, hidle', fun hmem ↦ ?_⟩
  cases reply with
  | thrown => cases hmem
  | ok result =>
    have hne : result.members ≠ [] := List.ne_nil_of_mem hmem
    exact ⟨ph, hph, result.members, hreturns result rfl (.inl hne), hmem⟩

/-- Every other operation is one call, and finds nobody. -/
theorem program_of_not_lookup (cfg : MembersConfig) (inst : ℕ) {o : PipeOp}
    (h : ∀ ssid, o ≠ .resolveMembers ssid) : o.program cfg inst = op (ChatOp.send o) := by
  cases o with
  | resolveMembers ssid => exact absurd rfl (h ssid)
  | _ => rfl

theorem listed_of_not_lookup {uid : String} {before : Bool} {o : PipeOp} {r : o.Res}
    (h : ∀ ssid, o ≠ .resolveMembers ssid) : listed uid before o r = before := by
  cases o with
  | resolveMembers ssid => exact absurd rfl (h ssid)
  | _ => rfl

/-- A message is published only when a lookup has come to an answer that names its sender. -/
theorem send_implemented_meets (config : TransmiteConfig) (cfg : MembersConfig) (inst : ℕ)
    (uid : String) (req : SendMessageReq) :
    ((SendMessage config (.ok uid) req).implement (PipeOp.program cfg inst)).Meets chatContract
      (.send inst uid req [.idle]) fun _ _ ↦ True := by
  have hlisted : (SendMessage config (.ok uid) req).Meets (listedContract uid req.conversation_id)
      false fun _ _ ↦ True := SendMessage_listed uid req
  have h := hlisted.implement (f := PipeOp.program cfg inst) (D := chatContract)
    (fun before t ↦ ∃ phases, t = .send inst uid req phases ∧ .idle ∈ phases ∧
      (before = true → FoundAmong uid phases)) ?_
    ⟨[.idle], rfl, List.mem_singleton_self _, fun h ↦ absurd h Bool.false_ne_true⟩
  · exact h.mono fun _ _ _ ↦ trivial
  · rintro before t o ⟨phases, rfl, hidle, hbefore⟩ ⟨hlookup, hpublish⟩
    -- a lookup is a program of its own, and everything else one call that finds nobody
    by_cases ho : ∃ ssid, o = .resolveMembers ssid
    · obtain ⟨ssid, rfl⟩ := ho
      obtain rfl := hlookup ssid rfl
      refine (resolve_members_answers cfg inst uid req hidle).mono ?_
      rintro t reply ⟨phases', rfl, hidle', hanswered⟩
      exact ⟨trivial, phases', rfl, hidle', fun h ↦ hanswered (of_decide_eq_true h)⟩
    · have hne : ∀ ssid, o ≠ .resolveMembers ssid := fun ssid h ↦ ho ⟨ssid, h⟩
      rw [program_of_not_lookup cfg inst hne]
      refine ⟨fun msg hmsg ↦ hbefore (hpublish msg hmsg), fun r _ ↦ ?_⟩
      refine ⟨trivial, phases, rfl, hidle, ?_⟩
      show listed uid before o r = true → _
      rw [listed_of_not_lookup hne]
      exact hbefore

end Meets

/-- **Every request** keeps to the contract. -/
theorem handler_meets (cfg : ChatConfig) (req : ChatReq) :
    (req.handler cfg).Meets chatContract req.start fun _ _ ↦ True := by
  cases req with
  | conv auth_uid req =>
    have hmeets : (handle_rpc cfg.conversation auth_uid req).Meets convContract
        ⟨auth_uid, req, none, none, [], none⟩ fun _ _ ↦ True := handle_rpc_meets auth_uid req
    have hdismisses : (handle_rpc cfg.conversation auth_uid req).Meets (dismissContract req) false
        fun _ _ ↦ True := handle_rpc_dismisses req
    have h := (hmeets.prod hdismisses).map (D := chatContract.comap ChatOp.conv)
      (fun x : ConvCall × Bool ↦ ChatCall.conv auth_uid req x.1 x.2) (fun _ _ ha ↦ ha)
      (fun _ _ _ ha ↦ ⟨ha, ha⟩)
      fun _ _ _ ↦ rfl
    exact Meets.lift (h.mono fun _ _ _ ↦ trivial)
  | getMemberIds auth_user ssid =>
    have hmeets : (GetMemberIds auth_user ssid []).Meets (readContract false ssid []) .idle
        fun _ _ ↦ True := getMemberIds_meets auth_user
    have h := (hmeets.restart (List.mem_singleton_self _)).map
      (D := chatContract.comap ChatOp.mem) (ChatCall.getMemberIds auth_user ssid)
      (fun _ _ ha ↦ ha) (fun _ _ _ _ _ _ ↦ trivial) fun _ _ _ ↦ rfl
    exact Meets.lift (h.mono fun _ _ _ ↦ trivial)
  | send inst uid req => exact send_implemented_meets cfg.transmite (cfg.members inst) inst uid req

/-! ### The members cache in every run -/

/-- What the thread has in hand is sound. -/
def ChatCall.Sound (m : MemState) : ChatCall → Prop
  | conv _ _ _ _ => True
  | getMemberIds _ ssid phases => ∀ ph ∈ phases, ph.Sound (m.convs ssid).db
  | send _ _ req phases => ∀ ph ∈ phases, ph.Sound (m.convs req.conversation_id).db

/-- The cache lists what it should, and the memberships are those of the tables. -/
structure CacheInv (ts : List ChatCall) (s : ChatState) : Prop where
  listing : Listing s.mem
  sound : ∀ (i : ℕ) t, ts[i]? = some t → t.Sound s.mem
  linked : ∀ cid, (s.mem.convs cid).db.current = s.conv.membership cid

section Cache

variable {s : ChatState} {ts : List ChatCall} {i : ℕ} {m m' : MemState}

theorem ChatCall.Sound.of_le {t : ChatCall} (h : t.Sound m)
    (hdb : ∀ cid, (m.convs cid).db ≤ (m'.convs cid).db) : t.Sound m' := by
  cases t with
  | conv => trivial
  | getMemberIds auth_user ssid phases => exact fun ph hph ↦ (h ph hph).of_le (hdb ssid)
  | send inst uid req phases => exact fun ph hph ↦ (h ph hph).of_le (hdb req.conversation_id)

theorem ChatReq.sound_start (req : ChatReq) (m : MemState) : req.start.Sound m := by
  cases req with
  | conv => trivial
  | getMemberIds | send =>
    intro ph hph
    obtain rfl := List.mem_singleton.1 hph
    exact ReadPhase.sound_idle

/-! A call to the conversation service. -/

theorem Conv.le_follow (c : Conv) (members : Finset String) : c.db ≤ (c.follow members).db := by
  rw [follow]
  split
  · exact le_refl _
  · exact Versioned.le_change _ _

theorem Conv.current_follow (c : Conv) (members : Finset String) :
    (c.follow members).db.current = members := by
  rw [follow]
  split
  · next h => exact h
  · exact Versioned.current_change _ _

/-- The members key is as it was, and as new as before. -/
theorem Conv.fresh_follow {c : Conv} {members : Finset String}
    (h : c.members ≠ ∅ → c.db.Fresh c.members) (hne : (c.follow members).members ≠ ∅) :
    (c.follow members).db.Fresh (c.follow members).members := by
  unfold follow at hne ⊢
  split
  · next heq =>
    rw [if_pos heq] at hne
    exact h hne
  · next heq =>
    rw [if_neg heq] at hne
    exact (h hne).change members

/-- An invalidation leaves nothing under the keys, and the membership as it is. -/
theorem MemState.invalidated_cases (m : MemState) (cid : String) (c : MemChoice) :
    m.invalidated cid c = m ∨ ∃ conv : Conv, m.invalidated cid c = m.setConv cid conv ∧
      conv.members = ∅ ∧ (m.convs cid).db ≤ conv.db ∧
      conv.db.current = (m.convs cid).db.current := by
  rw [invalidated]
  split
  · exact .inl rfl
  · split
    · next conv hconv =>
      unfold Conv.invalidate at hconv
      split at hconv
      · obtain rfl := Option.some.inj hconv
        exact .inr ⟨_, rfl, rfl, Versioned.le_raise _ _, rfl⟩
      · cases hconv
    · exact .inl rfl

/-- What a call to the conversation service does to the cache. -/
theorem ChatState.cached_spec (h : Listing s.mem)
    (hlinked : ∀ cid, (s.mem.convs cid).db.current = s.conv.membership cid) {o : ConvOp} {r : o.Res}
    {ch : ConvChoice} {conv : ConvState} (hx : s.conv.exec i o ch = some (r, conv))
    (c : MemChoice) :
    Listing (s.cached c conv o) ∧
      (∀ cid, (s.mem.convs cid).db ≤ ((s.cached c conv o).convs cid).db) ∧
      ∀ cid, ((s.cached c conv o).convs cid).db.current = conv.membership cid := by
  cases o with
  | invalidate cid =>
    obtain ⟨-, rfl⟩ := Prod.mk.inj (Option.some.inj hx)
    show Listing (s.mem.invalidated cid c) ∧
      (∀ k, (s.mem.convs k).db ≤ ((s.mem.invalidated cid c).convs k).db) ∧
      ∀ k, ((s.mem.invalidated cid c).convs k).db.current = s.conv.membership k
    rcases s.mem.invalidated_cases cid c with heq | ⟨conv, heq, hempty, hle, hcurrent⟩
    · rw [heq]
      exact ⟨h, fun _ ↦ le_refl _, hlinked⟩
    · -- nothing is left under the keys
      rw [heq]
      refine ⟨h.setConv hle fun hne ↦ absurd hempty hne, fun k ↦ ?_, fun k ↦ ?_⟩ <;>
        rw [MemState.convs_setConv]
      · split
        · next hk => exact hk ▸ hle
        · exact le_refl _
      · split
        · next hk => exact hcurrent.trans (hk ▸ hlinked cid)
        · exact hlinked k
  | _ =>
    refine ⟨?_, fun _ ↦ Conv.le_follow _ _, fun _ ↦ Conv.current_follow _ _⟩
    exact h.next (fun _ ↦ Conv.le_follow _ _) (fun cid ↦ Conv.fresh_follow (h.l2 cid))
      fun _ _ _ he ↦ .inl he

/-! ### Over a run -/

namespace ChatState

variable {collate : String → String} {ch : ChatChoice} {s' : ChatState}

/-! What a call does, for each of the three kinds. -/

theorem conv_of_exec {o : ConvOp} {r : o.Res} (hx : s.exec collate i (.conv o) ch = some (r, s')) :
    ∃ conv, s.conv.exec i o ch.conv = some (r, conv) ∧
      s' = { s with
        conv := conv, mem := s.cached ch.mem conv o, fresh := s.refresh i ch.conv.acts o r } := by
  obtain ⟨⟨r', conv⟩, hconv, heq⟩ := Option.map_eq_some_iff.1 hx
  obtain ⟨rfl, rfl⟩ := Prod.mk.inj heq
  exact ⟨conv, hconv, rfl⟩

theorem mem_of_exec {o : MemOp} {r : o.Res} (hx : s.exec collate i (.mem o) ch = some (r, s')) :
    ∃ mem, MemState.effect i o ch.mem ch.late s.mem = some (r, mem) ∧
      s' = { s with mem := mem } := by
  obtain ⟨⟨r', mem⟩, hmem, heq⟩ := Option.map_eq_some_iff.1 hx
  obtain ⟨rfl, rfl⟩ := Prod.mk.inj heq
  exact ⟨mem, hmem, rfl⟩

theorem send_of_exec {o : PipeOp} {r : o.Res} (hx : s.exec collate i (.send o) ch = some (r, s')) :
    ∃ pipe, Pipe.exec collate i o ch.send s.pipe = some (r, pipe) ∧
      s' = { s with pipe := pipe } := by
  obtain ⟨⟨r', pipe⟩, hpipe, heq⟩ := Option.map_eq_some_iff.1 hx
  obtain ⟨rfl, rfl⟩ := Prod.mk.inj heq
  exact ⟨pipe, hpipe, rfl⟩

end ChatState

/-- What a thread gets is what it may get. -/
theorem ChatCall.admits_of_exec {t : ChatCall} {o : ChatOp} {r : o.Res} {ch : ChatChoice}
    {s' : ChatState} {collate : String → String} (ha : t.allowed o)
    (hx : s.exec collate i o ch = some (r, s')) : t.admits o r := by
  cases t with
  | getMemberIds | send => trivial
  | conv auth_uid req t done =>
    cases o with
    | mem | send => exact ha.elim
    | conv o =>
      obtain ⟨conv, hconv, -⟩ := ChatState.conv_of_exec hx
      exact ConvInv.admits hconv

namespace CacheInv

/-- It is enough to look at the cache and at the threads that have learnt something. -/
theorem next {ts' : List ChatCall} {s' : ChatState} (h : CacheInv ts s) (hlisting : Listing s'.mem)
    (hdb : ∀ cid, (s.mem.convs cid).db ≤ (s'.mem.convs cid).db)
    (hlinked : ∀ cid, (s'.mem.convs cid).db.current = s'.conv.membership cid)
    (ht : ∀ (j : ℕ) t, ts'[j]? = some t → ts[j]? = some t ∨ t.Sound s'.mem) : CacheInv ts' s' where
  listing := hlisting
  sound j t hj := (ht j t hj).elim (fun hold ↦ (h.sound j t hold).of_le hdb) id
  linked := hlinked

/-- A call to the members cache. -/
theorem mem {t : ChatCall} {o : MemOp} {r : o.Res} {ch : MemChoice} {late : Bool}
    (h : CacheInv ts s) (hi : ts[i]? = some t) (ha : t.allowed (.mem o))
    (hx : MemState.effect i o ch late s.mem = some (r, m')) :
    CacheInv (ts.set i (t.next (.mem o) r)) { s with mem := m' } := by
  have hstep : Listing m' ∧ (∀ k, (m'.convs k).db = (s.mem.convs k).db) ∧
      (t.next (.mem o) r).Sound m' := by
    have hsound := h.sound i t hi
    cases t with
    | conv => exact ha.elim
    | getMemberIds auth_user ssid phases =>
      obtain ⟨hlisting, hdb, hlearns⟩ := h.listing.call hsound ha hx
      refine ⟨hlisting, hdb, fun ph hph ↦ ?_⟩
      obtain ⟨ph₀, -, hlearnt⟩ := hlearns ph hph
      exact hlearnt.sound.of_le (hdb ssid).ge
    | send inst uid req phases =>
      obtain ⟨hlisting, hdb, hlearns⟩ := h.listing.call hsound ha hx
      refine ⟨hlisting, hdb, fun ph hph ↦ ?_⟩
      obtain ⟨ph₀, -, hlearnt⟩ := hlearns ph hph
      exact hlearnt.sound.of_le (hdb req.conversation_id).ge
  obtain ⟨hlisting, hdb, hsound⟩ := hstep
  refine h.next hlisting (fun k ↦ (hdb k).ge) (fun k ↦ (congrArg _ (hdb k)).trans (h.linked k)) ?_
  intro j u hj
  rcases Pool.getElem?_set_cases hj with ⟨-, rfl⟩ | ⟨-, hold⟩
  · exact .inr hsound
  · exact .inl hold

/-- **A call of a thread** keeps the invariant. -/
theorem call {t : ChatCall} {o : ChatOp} {r : o.Res} {ch : ChatChoice} {s' : ChatState}
    {collate : String → String} (h : CacheInv ts s) (hi : ts[i]? = some t) (ha : t.allowed o)
    (hx : s.exec collate i o ch = some (r, s')) : CacheInv (ts.set i (t.next o r)) s' := by
  cases o with
  | mem o =>
    obtain ⟨mem, hmem, rfl⟩ := ChatState.mem_of_exec hx
    exact h.mem hi ha hmem
  | conv o =>
    obtain ⟨conv, hconv, rfl⟩ := ChatState.conv_of_exec hx
    obtain ⟨hlisting, hdb, hlinked⟩ := ChatState.cached_spec h.listing h.linked hconv ch.mem
    refine h.next hlisting hdb hlinked fun j u hj ↦ ?_
    rcases Pool.getElem?_set_cases hj with ⟨-, rfl⟩ | ⟨-, hold⟩
    · cases t with
      | conv => exact .inr trivial
      | getMemberIds | send => exact ha.elim
    · exact .inl hold
  | send o =>
    obtain ⟨pipe, hpipe, rfl⟩ := ChatState.send_of_exec hx
    refine h.next h.listing (fun _ ↦ le_refl _) h.linked fun j u hj ↦ ?_
    rcases Pool.getElem?_set_cases hj with ⟨rfl, rfl⟩ | ⟨-, hold⟩
    · -- its lookups have the same in hand as before
      cases t with
      | conv | getMemberIds => exact ha.elim
      | send inst uid req phases => exact .inl hi
    · exact .inl hold

/-- A request arrives. -/
theorem arrive (h : CacheInv ts s) (req : ChatReq) :
    CacheInv (ts ++ [req.start]) (s.arrive req) := by
  refine h.next h.listing (fun _ ↦ le_refl _) h.linked fun j t hj ↦ ?_
  rcases Pool.getElem?_append_cases hj with ⟨-, rfl⟩ | ⟨-, hold⟩
  · exact .inr (req.sound_start _)
  · exact .inl hold

theorem empty : CacheInv [] {} where
  listing := .empty
  sound _ _ hi := absurd (hi : none = some _) (Option.some_ne_none _).symm
  linked _ := rfl

end CacheInv

/-- What the events leave that are no arrivals. -/
structure ChatState.Lapses (s s' : ChatState) : Prop where
  conv : s'.conv = s.conv
  calls : s'.calls = s.calls
  fresh : s'.fresh = s.fresh
  late : s'.late = s.late
  wire : s'.pipe.wire.map (·.tid) = s.pipe.wire.map (·.tid)
  listing : Listing s.mem → Listing s'.mem
  db : ∀ k, (s'.mem.convs k).db = (s.mem.convs k).db

theorem CacheInv.lapse {s' : ChatState} (h : CacheInv ts s) (hs : s.Lapses s') :
    CacheInv ts s' := by
  refine h.next (hs.listing h.listing) (fun k ↦ (hs.db k).ge) (fun k ↦ ?_) fun _ _ hj ↦ .inl hj
  rw [hs.db k, hs.conv]
  exact h.linked k

theorem ChatState.lapses_of_mem (hlisting : Listing s.mem → Listing m')
    (hdb : ∀ k, (m'.convs k).db = (s.mem.convs k).db) : s.Lapses { s with mem := m' } :=
  ⟨rfl, rfl, rfl, rfl, rfl, hlisting, hdb⟩

/-- A key of a conversation expires. -/
theorem ChatState.lapses_setConv (s : ChatState) {ssid : String} {c : Conv}
    (hdb : c.db = (s.mem.convs ssid).db)
    (hmembers : c.members = (s.mem.convs ssid).members ∨ c.members = ∅) :
    s.Lapses { s with mem := s.mem.setConv ssid c } := by
  refine lapses_of_mem (fun h ↦ h.setConv hdb.ge fun hne ↦ ?_) fun k ↦ ?_
  · rcases hmembers with heq | hempty
    · rw [heq] at hne ⊢
      rw [hdb]
      exact h.l2 ssid hne
    · exact absurd hempty hne
  · rw [MemState.convs_setConv]
    split
    · next hk => exact hk ▸ hdb
    · rfl

/-- The broker receives a publish of somebody who has published. -/
theorem wire_of_receive {q q' : PipePool} {n : ℕ} {cfg : PipeConfig}
    (hx : Pipe.env cfg (.receive n) q = some q') :
    q'.shared.wire.map (·.tid) = q.shared.wire.map (·.tid) := by
  simp only [Pipe.env] at hx
  split at hx
  · next e he =>
    split at hx
    · obtain rfl := Option.some.inj hx
      obtain ⟨hlt, rfl⟩ := List.getElem?_eq_some_iff.1 he
      exact Pool.map_set_eq (List.getElem?_eq_getElem hlt) rfl
    · cases hx
  · cases hx

/-- **What an event does**: a request arrives, or something lapses. -/
theorem event_cases {cfg : ChatConfig} {e : ChatEv} {p p' : ChatPool}
    (hm : p.Meets chatContract (fun _ ↦ True) ts) (hx : ChatState.env cfg e p = some p') :
    (∃ req, p'.shared = p.shared.arrive req ∧
      p'.Meets chatContract (fun _ ↦ True) (ts ++ [req.start])) ∨
    p.shared.Lapses p'.shared ∧ p'.Meets chatContract (fun _ ↦ True) ts := by
  cases e with
  | arrive req =>
    obtain rfl := Option.some.inj hx
    exact .inl ⟨req, rfl, hm.spawn (handler_meets cfg req) _⟩
  | receive n =>
    obtain ⟨q, hq, rfl⟩ := Option.map_eq_some_iff.1 hx
    exact .inr ⟨⟨rfl, rfl, rfl, rfl, wire_of_receive hq, id, fun _ ↦ rfl⟩, hm⟩
  | crash i =>
    obtain rfl := Option.some.inj hx
    exact .inr ⟨⟨rfl, rfl, rfl, rfl, rfl, id, fun _ ↦ rfl⟩, hm.stop (fun _ ↦ trivial) i _⟩
  | expireMembers ssid =>
    obtain rfl := Option.some.inj hx
    exact .inr ⟨p.shared.lapses_setConv rfl (.inr rfl), hm⟩
  | expireSentinel ssid =>
    obtain rfl := Option.some.inj hx
    exact .inr ⟨p.shared.lapses_setConv rfl (.inl rfl), hm⟩
  | evict inst ssid =>
    obtain rfl := Option.some.inj hx
    exact .inr ⟨ChatState.lapses_of_mem (fun h ↦ h.setLocal nofun) fun _ ↦ rfl, hm⟩

/-- The invariant holds in every run. -/
theorem cacheInv_of_reach {cfg : ChatConfig} {p : ChatPool}
    {G : Machine.Guard ChatOp ChatOp.Res ChatState ChatChoice ChatEv}
    (hr : (chatService cfg).Reach G ⟨[], {}⟩ p) :
    ∃ ts, CacheInv ts p.shared ∧ p.Meets chatContract (fun _ ↦ True) ts := by
  refine Machine.invariant hr ⟨[], .empty, .nil⟩ ?_ ?_
  · intro ts s i t o ch r s' h hi ha _ hx
    have hinv : CacheInv (ts.set i (t.next o r)) s' := h.call hi ha hx
    exact ⟨ChatCall.admits_of_exec ha hx, hinv⟩
  · intro ts p e p' h hm _ hx
    rcases event_cases hm hx with ⟨req, heq, hm'⟩ | ⟨hs, hm'⟩
    · rw [heq]
      exact ⟨_, h.arrive req, hm'⟩
    · exact ⟨ts, h.lapse hs, hm'⟩

end Cache

end ChatNow
