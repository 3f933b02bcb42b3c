import ChatNow.Conversation.Rows
import ChatNow.Conversation.Views
import ChatNow.Message.Reads

/-!
# Queries while messages arrive

The requests of the conversation service, its queries, and the deliveries to `onDBMessage` as
threads over the tables of both services and the cache of previews. Recalls and deletions of
messages are events, and so is the loss of an entry of the cache.

What the machine notes down and nobody reads (`marks`, `served`, `fetched`, `answers`) is what the
members have marked as read, where the previews come from, and what has been answered.

One contract (`viewContract`) says of all threads what they write; `view_invariant` carries what is
said of a run along with it. The numbers of all conversations in it are 0 (`SeqInv`): no thread has
a method that sets `max_seq`.
-/

namespace ChatNow

open Prog ViewOp

variable {Text : Type}

/-! ### The state -/

/-- A read of the message table for what comes after a number. -/
structure TableRead where
  rows : List MessageRow := []
  cid : String := ""
  after_seq : UInt64 := 0

/-- The row that it finds first. -/
def TableRead.first (r : TableRead) : Option MessageRow :=
  (select_after r.rows r.cid r.after_seq 1).head?

/-- Where the preview that a thread is given comes from. -/
structure Served where
  /-- The message table when it is given. -/
  now : List MessageRow := []
  /-- The read of the table that it has been made from. -/
  origin : TableRead := {}

/-- An entry of the cache of previews. -/
structure PreviewEntry (Text : Type) where
  preview_json : Text
  /-- The read of the table that it has been made from. -/
  origin : TableRead

/-- A preview in a response. -/
structure Fetched extends Served where
  cid : String
  preview : MessagePreview

/-- The tables, the cache, and what happened. -/
structure ViewState (Text : Type) where
  conv : ConvState := {}
  pipe : Pipe := {}
  cache : String → Option (PreviewEntry Text) := fun _ ↦ none
  /-- Every mark that has been committed: the conversation, the member, and the number. -/
  marks : List (String × String × ℕ) := []
  /-- What each thread has been given last. -/
  served : ℕ → Served := fun _ ↦ {}
  /-- Every preview that has been copied into a response. -/
  fetched : List Fetched := []
  /-- Every response to a query, with its caller. -/
  answers : List (String × Except ServiceError ViewRsp) := []

/-- What the environment decides at a call. -/
structure ViewChoice where
  conv : ConvChoice := {}
  message : Choice := {}
  /-- The call fails. -/
  fault : Bool := false
  /-- A text that is empty is NULL. -/
  null : Bool := false
  /-- How many rows of a query arrive before it fails. -/
  rows : Option ℕ := none
  /-- What `GetMultiUserInfo` answers. -/
  infos : List (String × String) := []

/-! ### The operations -/

/-- A text of a column that may be NULL. -/
def nullable (null : Bool) (text : String) : Option String :=
  if text.isEmpty && null then none else some text

/-- A row of the view. -/
def OrderedConversationView.of (null : Bool) (m : ConversationMember) (c : Conversation) :
    OrderedConversationView where
  conversation_id := c.conversation_id
  conversation_name := nullable null c.conversation_name
  conversation_type := c.conversation_type
  create_time := c.create_time
  member_count := c.member_count
  status := c.status
  avatar_id := nullable null c.avatar_id
  peer_user_id := c.peer_user_id
  max_seq := c.max_seq
  update_time := c.update_time
  pin_time := m.pin_time
  muted := m.muted
  visible := m.visible
  role := m.role
  last_read_seq := m.last_read_seq
  last_ack_seq := m.last_ack_seq
  join_time := m.join_time
  draft := m.draft

/-- `list_ordered_by_user`. -/
def ConvState.list_ordered_by_user (s : ConvState) (uid : String) (null : Bool) :
    List OrderedConversationView :=
  (((s.members.rows.filter fun m ↦ m.user_id = uid && !m.is_quit && m.visible).filterMap fun m ↦
    (s.convs.find m.conversation_id).map (.of null m)).insertionSort
      fun v w ↦ v.before w = true).take 200

/-- What a member marks as read. -/
def ConvOp.mark : ConvOp → Option (String × String × ℕ)
  | updateLastReadSeq cid uid new_seq => some (cid, uid, new_seq)
  | _ => none

namespace ViewState

variable (s : ViewState Text)

/-- What the threads have been given last, after a call of thread `i` to the message service. -/
def serves (i : ℕ) : PipeOp → ℕ → Served
  | .selectAfter cid after_seq _ =>
    Function.update s.served i ⟨s.pipe.rows, ⟨s.pipe.rows, cid, after_seq⟩⟩
  | _ => s.served

/-- The effect of a call by thread `i`. -/
def exec (collate : String → String) (i : ℕ) : (o : ViewOp Text) → ViewChoice → ViewState Text →
    Option (o.Res × ViewState Text)
  | .conv o, c, s =>
    (s.conv.exec i o c.conv).map fun x ↦
      (x.1, { s with conv := x.2
                     marks := (if c.conv.acts then o.mark.toList else []) ++ s.marks })
  | .message o, c, s =>
    (Pipe.exec collate i o c.message s.pipe).map fun x ↦
      (x.1, { s with pipe := x.2, served := s.serves i o })
  | listOrderedByUser uid, c, s =>
    some (arriving c.rows (s.conv.list_ordered_by_user uid c.null), s)
  | getMultiUserInfo _, c, s => some (c.infos, s)
  | lastMsgGet key, c, s =>
    match s.cache key with
    | some e =>
      if c.fault then some (none, s)
      else some (some e.preview_json,
        { s with served := Function.update s.served i ⟨s.pipe.rows, e.origin⟩ })
    | none => some (none, s)
  | lastMsgSet key preview_json, c, s =>
    if c.fault then some ((), s)
    else some ((), { s with
      cache := Function.update s.cache key (some ⟨preview_json, (s.served i).origin⟩) })
  | callMessage, c, s => some (!c.fault, s)
  | copyPreview cid preview, _, s =>
    some ((), { s with fetched := ⟨s.served i, cid, preview⟩ :: s.fetched })
  | reply auth_uid rsp, _, s => some ((), { s with answers := (auth_uid, rsp) :: s.answers })

end ViewState

/-! ### The events -/

/-- What can happen beside the calls. -/
inductive ViewEv
  /-- A request arrives that is no query. -/
  | arrive (auth_uid : String) (req : ConvReq)
  /-- A query arrives. -/
  | query (rid auth_uid : String) (req : ViewReq)
  /-- The broker delivers a message. -/
  | deliver (msg : InternalMessage) (redelivered : Bool)
  /-- A recall is committed. -/
  | recallMessage (mid : UInt64)
  /-- A deletion is committed. -/
  | deleteMessage (mid : UInt64)
  /-- An entry of the cache expires. -/
  | expire (key : String)
  /-- A thread is gone. -/
  | crash (i : ℕ)

/-- The two services. -/
structure ViewConfig where
  conversation : ConversationServiceConfig
  message : MessageConfig := {}
  /-- To the database of the message service, two texts are one when these are. -/
  collate : String → String := id

abbrev ViewPool (Text : Type) := Pool (ViewOp Text) ViewOp.Res (ViewState Text)

/-- The rows of the message table become others. -/
def ViewState.alter (s : ViewState Text) (f : MessageRow → MessageRow) : ViewState Text :=
  { s with pipe := { s.pipe with rows := s.pipe.rows.map f } }

/-- The row of a message as `update_status_to_recalled` writes it back. -/
def recall_row (mid : UInt64) (row : MessageRow) : MessageRow :=
  if row.message_id = mid then row.recalled else row

/-- The effect of an event. -/
def ViewState.env (lib : JsonLib) (cfg : ViewConfig) :
    ViewEv → ViewPool lib.Text → Option (ViewPool lib.Text)
  | .arrive auth_uid req, p =>
    some ⟨p.threads ++ [(handle_rpc cfg.conversation auth_uid req).lift ViewOp.conv],
      { p.shared with conv := { p.shared.conv with
        requests := p.shared.conv.requests ++ [(auth_uid, req)] } }⟩
  | .query rid auth_uid req, p =>
    some ⟨p.threads ++ [handle_view lib cfg.conversation rid auth_uid req], p.shared⟩
  | .deliver msg redelivered, p =>
    some ⟨p.threads ++ [(consume cfg.message msg redelivered).lift ViewOp.message], p.shared⟩
  | .recallMessage mid, p => some ⟨p.threads, p.shared.alter (recall_row mid)⟩
  | .deleteMessage mid, p => some ⟨p.threads, p.shared.alter (mark_deleted mid)⟩
  | .expire key, p =>
    some ⟨p.threads, { p.shared with cache := Function.update p.shared.cache key none }⟩
  | .crash i, p => some ⟨p.threads.set i (.ret ()), p.shared⟩

/-- The conversation service with its queries. -/
def viewService (lib : JsonLib) (cfg : ViewConfig) :
    Machine (ViewOp lib.Text) ViewOp.Res (ViewState lib.Text) ViewChoice ViewEv :=
  ⟨ViewState.exec cfg.collate, ViewState.env lib cfg⟩

/-! ### The contract -/

/-- Where the fetch of a preview stands. -/
inductive FetchPhase (Text : Type)
  | idle
  /-- The text has been found in the cache. -/
  | hit (preview_json : Text)
  /-- The rows have been read from the table. -/
  | page (rows : List MessageRow)

/-- A thread: a request, or a query or a delivery. -/
inductive ViewCall (Text : Type)
  | conv (t : ConvCall)
  | read (ph : FetchPhase Text)

/-- The preview of a row. -/
def MessageRow.preview (r : MessageRow) : MessagePreview :=
  preview_of (convert_db_message_to_proto_ r)

/-- The preview is that of the row that has been read, or is in the text that has been found. -/
def FetchPhase.Shows {lib : JsonLib} (preview : MessagePreview) : FetchPhase lib.Text → Prop
  | idle => False
  | hit preview_json => parse_preview_json_ lib preview_json = .ok (some preview)
  | page rows => ∃ r, rows.head? = some r ∧ preview = r.preview

/-- No conversation in the response has anything that is unread. -/
def ViewRsp.NoneUnread (rsp : ViewRsp) : Prop :=
  ∀ c ∈ rsp.entries, ∀ info, c.self = some info → info.unread_count = 0

namespace ViewCall

variable {lib : JsonLib}

/-- What a thread may do. -/
def allowed : ViewCall lib.Text → ViewOp lib.Text → Prop
  | .conv t, .conv o => t.allowed o
  | .conv _, _ => False
  | .read _, .conv (.selectConv _) => True
  | .read _, .conv (.selectMember _ _) => True
  | .read _, .conv _ => False
  | .read ph, .lastMsgSet _ preview_json => ∃ rows r, ph = .page rows ∧ rows.head? = some r ∧
      preview_json = serialize_preview_json_ lib r.preview
  | .read ph, .copyPreview _ preview => ph.Shows preview
  | .read _, .reply _ rsp => ∀ v, rsp = .ok v → v.NoneUnread
  | .read _, _ => True

/-- What it may get. -/
def admits : ViewCall lib.Text → (o : ViewOp lib.Text) → o.Res → Prop
  | .conv _, .conv o, r => ConvCall.admits o r
  | .read _, .conv (.selectConv _), some c => c.max_seq = 0
  | .read _, .listOrderedByUser _, views => ∀ v ∈ views, v.max_seq = 0
  | _, _, _ => True

/-- What it knows after an answer. -/
def next : ViewCall lib.Text → (o : ViewOp lib.Text) → o.Res → ViewCall lib.Text
  | .conv t, .conv o, r => .conv (t.next o r)
  | .read _, .lastMsgGet _, some preview_json => .read (.hit preview_json)
  | .read _, .message (.selectAfter _ _ _), rows => .read (.page rows)
  | t, _, _ => t

/-- It has done nothing yet. -/
def Fresh (t : ViewCall lib.Text) : Prop :=
  t = .read .idle ∨ ∃ auth_uid req, t = .conv ⟨auth_uid, req, none, none, [], none⟩

/-- A query stays one. -/
theorem next_read (ph : FetchPhase lib.Text) (o : ViewOp lib.Text) (r : o.Res) :
    ∃ ph', next (.read ph) o r = .read ph' := by
  unfold next
  split
  · next h => cases h
  · exact ⟨_, rfl⟩
  · exact ⟨_, rfl⟩
  · exact ⟨ph, rfl⟩

end ViewCall

/-- What the threads write. -/
def viewContract (lib : JsonLib) : Contract (ViewOp lib.Text) ViewOp.Res (ViewCall lib.Text) where
  allowed := ViewCall.allowed
  admits := ViewCall.admits
  next := ViewCall.next

/-! ### The threads keep to it -/

section Meets

variable {lib : JsonLib} {cfg : ConversationServiceConfig} {α : Type}

theorem request_meets (auth_uid : String) (req : ConvReq) :
    ((handle_rpc cfg auth_uid req).lift ViewOp.conv).Meets (viewContract lib)
      (.conv ⟨auth_uid, req, none, none, [], none⟩) fun _ _ ↦ True := by
  have hmeets : (handle_rpc cfg auth_uid req).Meets convContract
      ⟨auth_uid, req, none, none, [], none⟩ fun _ _ ↦ True := handle_rpc_meets auth_uid req
  have h := hmeets.map (D := (viewContract lib).comap .conv) ViewCall.conv (fun _ _ ha ↦ ha)
    (fun _ _ _ ha ↦ ha) fun _ _ _ ↦ rfl
  exact Meets.lift (h.mono fun _ _ _ ↦ trivial)

/-- The message service is asked whatever it may be asked. -/
theorem message_meets (p : PipeM α) (ph : FetchPhase lib.Text) :
    (p.lift ViewOp.message).Meets (viewContract lib) (.read ph) fun t _ ↦ ∃ ph', t = .read ph' := by
  induction p generalizing ph with
  | ret a => exact ⟨ph, rfl⟩
  | call o k ih =>
    refine ⟨trivial, fun r _ ↦ ?_⟩
    obtain ⟨ph', hph'⟩ := ViewCall.next_read ph (.message o) r
    have hnext : (viewContract lib).next (.read ph) (.message o) r = .read ph' := hph'
    rw [hnext]
    exact ih r ph'

/-- The first message of the answer is that of the first row. -/
theorem SyncMessages_meets (rid uid cid : String) (after_seq : UInt64) (limit : Int32)
    (ph : FetchPhase lib.Text) :
    ((SyncMessages rid uid cid after_seq limit).lift ViewOp.message).Meets (viewContract lib)
      (.read ph) fun t rsp ↦ ∃ ph', t = .read ph' ∧ ∀ m ms, rsp.messages = m :: ms →
        ∃ rows r, ph' = .page rows ∧ rows.head? = some r ∧ m = convert_db_message_to_proto_ r := by
  refine Meets.lift ?_
  rw [SyncMessages]
  split
  · exact ⟨ph, rfl, fun m ms hnil ↦ by cases hnil⟩
  · refine meets_op_bind.2 ⟨trivial, fun member _ ↦ ?_⟩
    cases member with
    | false => exact ⟨ph, rfl, fun m ms hnil ↦ by cases hnil⟩
    | true =>
      refine meets_op_bind.2 ⟨trivial, fun rows _ ↦ ?_⟩
      refine meets_op_bind.2 ⟨trivial, fun latest _ ↦ ?_⟩
      refine ⟨.page rows, rfl, fun m ms hms ↦ ?_⟩
      obtain ⟨r, rs, hpage, rfl, -⟩ := List.map_eq_cons_iff.1 hms
      obtain ⟨rest, hrest⟩ := SyncMessages.page_isPrefix limit.toInt.toNat rows
      rw [show (SyncMessages.page limit.toInt.toNat rows).1 = r :: rs from hpage] at hrest
      exact ⟨rows, r, rfl, by rw [← hrest]; rfl, rfl⟩

theorem sync_last_message_meets (rid cid : String) (after_seq : UInt64) (caller_uid : String)
    (ph : FetchPhase lib.Text) :
    (sync_last_message lib rid cid after_seq caller_uid).Meets (viewContract lib) (.read ph)
      fun t p ↦ ∃ ph', t = .read ph' ∧ ∀ preview, p = some preview → ph'.Shows preview := by
  refine meets_op_bind.2 ⟨trivial, fun reached _ ↦ ?_⟩
  cases reached with
  | false => exact ⟨ph, rfl, fun _ hnone ↦ nomatch hnone⟩
  | true =>
    refine (SyncMessages_meets rid caller_uid cid after_seq 1 ph).bind ?_
    rintro t rsp ⟨ph', rfl, hfirst⟩
    split
    · next m ms _ hms =>
      obtain ⟨rows, r, rfl, hr, rfl⟩ := hfirst m ms hms
      refine meets_op_bind.2 ⟨⟨rows, r, rfl, hr, rfl⟩, fun _ _ ↦ ?_⟩
      refine ⟨.page rows, rfl, fun preview hpreview ↦ ?_⟩
      exact ⟨r, hr, (Option.some.inj hpreview).symm⟩
    · exact ⟨ph', rfl, fun _ hnone ↦ nomatch hnone⟩

theorem fetch_last_message_meets (rid cid : String) (after_seq : UInt64) (caller_uid : String)
    (ph : FetchPhase lib.Text) :
    (fetch_last_message_ lib rid cid after_seq caller_uid).Meets (viewContract lib) (.read ph)
      fun t r ↦ ∃ ph', t = .read ph' ∧ ∀ preview, r = .ok (some preview) → ph'.Shows preview := by
  refine meets_op_bind.2 ⟨trivial, fun cached _ ↦ ?_⟩
  have hsync (ph : FetchPhase lib.Text) :=
    (sync_last_message_meets rid cid after_seq caller_uid ph).bind
      (f := fun fetched ↦ (return Reply.ok fetched))
      (R := fun t r ↦ ∃ ph', t = .read ph' ∧ ∀ preview, r = .ok (some preview) → ph'.Shows preview)
      fun t p ⟨ph', ht, hp⟩ ↦ ⟨ph', ht, fun preview hpreview ↦ hp preview (Reply.ok.inj hpreview)⟩
  cases cached with
  | none => exact hsync ph
  | some preview_json =>
    dsimp only [Option.map_some]
    cases hparse : parse_preview_json_ lib preview_json with
    | thrown => exact ⟨.hit preview_json, rfl, fun _ hthrown ↦ nomatch hthrown⟩
    | ok p =>
      cases p with
      | none => exact hsync _
      | some preview =>
        refine ⟨.hit preview_json, rfl, fun preview' hok ↦ ?_⟩
        obtain rfl := Option.some.inj (Reply.ok.inj hok)
        exact hparse

theorem last_message_meets (rid cid : String) (last_read_seq : ℕ) (auth_uid : String)
    (ph : FetchPhase lib.Text) :
    (last_message lib rid cid last_read_seq auth_uid).Meets (viewContract lib) (.read ph)
      fun t _ ↦ ∃ ph', t = .read ph' := by
  refine (fetch_last_message_meets rid cid _ auth_uid ph).bind ?_
  rintro t r ⟨ph', rfl, hshows⟩
  split
  · next preview => exact ⟨hshows preview rfl, fun _ _ ↦ ⟨ph', rfl⟩⟩
  · exact ⟨ph', rfl⟩

/-- What is filled in from a number that is 0. -/
theorem unread_of_zero {m : ConversationMember} {max_seq : ℕ} (h : max_seq = 0) :
    (fill_self_member_info_ m max_seq).unread_count = 0 := by
  subst h
  exact Nat.zero_sub _

theorem list_loop_meets (rid auth_uid : String) (peer_map : List (String × String))
    {views : List OrderedConversationView} (hviews : ∀ v ∈ views, v.max_seq = 0)
    (ph : FetchPhase lib.Text) :
    (list_loop lib cfg rid auth_uid peer_map views).Meets (viewContract lib) (.read ph)
      fun t r ↦ ∃ ph', t = .read ph' ∧ ∀ cs, r = .ok cs →
        ∀ c ∈ cs, ∀ info, c.self = some info → info.unread_count = 0 := by
  induction views generalizing ph with
  | nil =>
    refine ⟨ph, rfl, fun cs hcs ↦ ?_⟩
    obtain rfl := Reply.ok.inj hcs
    exact fun c hc ↦ nomatch hc
  | cons v views ih =>
    have hrest := ih fun w hw ↦ hviews w (List.mem_cons_of_mem _ hw)
    rw [list_loop]
    split
    · exact hrest ph
    · refine (last_message_meets rid v.conversation_id v.last_read_seq auth_uid ph).bind ?_
      rintro t r ⟨ph', rfl⟩
      cases r with
      | thrown => exact ⟨ph', rfl, fun _ hthrown ↦ nomatch hthrown⟩
      | ok preview =>
        refine (hrest ph').bind ?_
        rintro t r ⟨ph'', rfl, hcs⟩
        cases r with
        | thrown => exact ⟨ph'', rfl, fun _ hthrown ↦ nomatch hthrown⟩
        | ok cs =>
          refine ⟨ph'', rfl, fun cs' hcs' c hc info hinfo ↦ ?_⟩
          obtain rfl := Reply.ok.inj hcs'
          rcases List.mem_cons.1 hc with rfl | hc
          · obtain rfl := Option.some.inj hinfo
            exact unread_of_zero (hviews v List.mem_cons_self)
          · exact hcs cs rfl c hc info hinfo

theorem ListConversations_meets (rid auth_uid : String) :
    (ListConversations lib cfg rid auth_uid).Meets (viewContract lib) (.read .idle)
      fun t rsp ↦ ∃ ph, t = .read ph ∧ ∀ v, rsp = .ok v → v.NoneUnread := by
  refine meets_op_bind.2 ⟨trivial, fun views hviews ↦ ?_⟩
  have hinfos : (fetch_user_infos_ lib (views.filterMap (·.peer_user_id))).Meets (viewContract lib)
      (.read .idle) fun t _ ↦ t = .read .idle := by
    rw [fetch_user_infos_]
    split
    · rfl
    · exact ⟨trivial, fun _ _ ↦ rfl⟩
  refine hinfos.bind ?_
  rintro t peer_map rfl
  refine (list_loop_meets rid auth_uid peer_map hviews .idle).bind ?_
  rintro t r ⟨ph, rfl, hcs⟩
  cases r with
  | thrown => exact ⟨ph, rfl, fun _ herror ↦ nomatch herror⟩
  | ok cs =>
    refine ⟨ph, rfl, fun v hv ↦ ?_⟩
    obtain rfl := Except.ok.inj hv
    exact hcs cs rfl

theorem GetConversation_meets (rid auth_uid cid : String) :
    (GetConversation lib cfg rid auth_uid cid).Meets (viewContract lib) (.read .idle)
      fun t rsp ↦ ∃ ph, t = .read ph ∧ ∀ v, rsp = .ok v → v.NoneUnread := by
  refine meets_op_bind.2 ⟨trivial, fun c hc ↦ ?_⟩
  cases c with
  | none => exact ⟨.idle, rfl, fun _ herror ↦ nomatch herror⟩
  | some c =>
    have hmember : ((require_member_ cid auth_uid).lift ViewOp.conv).Meets (viewContract lib)
        (.read .idle) fun t _ ↦ t = .read .idle := by
      refine Meets.lift (meets_op_bind.2 ⟨trivial, fun m _ ↦ ?_⟩)
      cases m <;> rfl
    refine hmember.bind ?_
    rintro t ok rfl
    cases ok with
    | false => exact ⟨.idle, rfl, fun _ herror ↦ nomatch herror⟩
    | true =>
      refine meets_op_bind.2 ⟨trivial, fun self _ ↦ ?_⟩
      refine (last_message_meets rid cid _ auth_uid .idle).bind ?_
      rintro t r ⟨ph, rfl⟩
      cases r with
      | thrown => exact ⟨ph, rfl, fun _ herror ↦ nomatch herror⟩
      | ok preview =>
        refine ⟨ph, rfl, fun v hv entry hentry info hinfo ↦ ?_⟩
        obtain rfl := Except.ok.inj hv
        obtain rfl := List.mem_singleton.1 hentry
        obtain ⟨m, -, rfl⟩ := Option.map_eq_some_iff.1 hinfo
        exact unread_of_zero hc

theorem handle_view_meets (rid auth_uid : String) (req : ViewReq) :
    (handle_view lib cfg rid auth_uid req).Meets (viewContract lib) (.read .idle)
      fun _ _ ↦ True := by
  have hreply {t : ViewCall lib.Text} {rsp : Except ServiceError ViewRsp}
      (h : ∃ ph, t = .read ph ∧ ∀ v, rsp = .ok v → v.NoneUnread) :
      (op (reply auth_uid rsp) : ViewM lib.Text Unit).Meets (viewContract lib) t
        fun _ _ ↦ True := by
    obtain ⟨ph, rfl, hnone⟩ := h
    exact ⟨hnone, fun _ _ ↦ trivial⟩
  cases req with
  | list => exact (ListConversations_meets rid auth_uid).bind fun _ _ h ↦ hreply h
  | get cid => exact (GetConversation_meets rid auth_uid cid).bind fun _ _ h ↦ hreply h

end Meets

/-! ### The numbers of the conversations -/

/-- No conversation has a number, and no thread holds one that has. -/
structure SeqInv (ts : List (ViewCall Text)) (s : ViewState Text) : Prop where
  zero : ∀ cid c, s.conv.convs.find cid = some c → c.max_seq = 0
  held : ∀ (i : ℕ) t, ts[i]? = some (.conv t) → ∀ c, t.conv = some c → c.max_seq = 0

section Seq

variable {s s' : ConvState} {t : ConvCall} {o : ConvOp} {r : o.Res} {i : ℕ} {ch : ConvChoice}

theorem zero_of_write {convs : Table Conversation.conversation_id} {c : Conversation}
    (hzero : ∀ cid c, convs.find cid = some c → c.max_seq = 0) (hc : c.max_seq = 0) :
    ∀ cid c', (convs.write c).find cid = some c' → c'.max_seq = 0 := by
  intro cid c' hc'
  rw [Table.find_write] at hc'
  obtain ⟨c₀, hc₀, rfl⟩ := Option.map_eq_some_iff.1 hc'
  split
  · exact hc
  · exact hzero cid c₀ hc₀

/-- A new conversation starts with 0, and what is written back is what has been read. -/
theorem zero_of_move (hzero : ∀ cid c, s.convs.find cid = some c → c.max_seq = 0)
    (hheld : ∀ c, t.conv = some c → c.max_seq = 0) (ha : t.allowed o)
    (hmove : ConvMove s ch o s') : ∀ cid c, s'.convs.find cid = some c → c.max_seq = 0 := by
  cases hmove with
  | stay hconvs _ _ =>
    rw [hconvs]
    exact hzero
  | @found c convs hinsert =>
    obtain ⟨-, req, cid₀, now, -, rfl⟩ := ha
    intro cid c' hc'
    rw [Table.find_insert hinsert] at hc'
    split at hc'
    · rw [← Option.some.inj hc']
      rfl
    · exact hzero cid c' hc'
  | restore _ _ =>
    obtain ⟨-, -, c₀, hc₀, hkeeps⟩ := ha
    exact zero_of_write hzero (hkeeps.max_seq.trans (hheld c₀ hc₀))
  | join _ hc | recount _ _ _ _ hc | transfer _ _ _ _ _ hc =>
    have hkept := hzero _ _ hc
    exact zero_of_write hzero hkept
  | people _ | rewrite _ _ _ _ | half _ _ _ | advance _ _ _ => exact hzero

theorem held_zero_of_next (hzero : ∀ cid c, s.convs.find cid = some c → c.max_seq = 0)
    (hheld : ∀ c, t.conv = some c → c.max_seq = 0) (hx : s.exec i o ch = some (r, s')) :
    ∀ c, (t.next o r).conv = some c → c.max_seq = 0 := by
  intro c hc
  unfold ConvCall.next at hc
  split at hc
  · exact hheld c hc
  · next cid c' =>
    obtain rfl := Option.some.inj hc
    exact hzero cid c' (ConvState.find_of_selectConv hx)
  · exact hheld c hc
  · exact hheld c hc
  · exact hheld c hc

end Seq

namespace SeqInv

variable {lib : JsonLib} {ts : List (ViewCall lib.Text)} {s s' : ViewState lib.Text} {i : ℕ}
  {t : ViewCall lib.Text} {ch : ViewChoice}
  {collate : String → String}

/-- The view shows the numbers of the conversations. -/
theorem views (h : SeqInv ts s) (uid : String) (null : Bool) :
    ∀ v ∈ s.conv.list_ordered_by_user uid null, v.max_seq = 0 := by
  intro v hv
  have hrow := (List.mem_insertionSort _).1 (List.mem_of_mem_take hv)
  obtain ⟨m, -, hm⟩ := List.mem_filterMap.1 hrow
  obtain ⟨c, hc, rfl⟩ := Option.map_eq_some_iff.1 hm
  exact h.zero _ c hc

/-- A call of a query or a delivery leaves the conversations, and is told of none with a number. -/
theorem read (h : SeqInv ts s) {ph : FetchPhase lib.Text} {o : ViewOp lib.Text} {r : o.Res}
    (ha : ViewCall.allowed (.read ph) o) (hx : s.exec collate i o ch = some (r, s')) :
    ViewCall.admits (.read ph) o r ∧ s'.conv.convs = s.conv.convs := by
  cases o with
  | conv o =>
    obtain ⟨⟨r', conv'⟩, hconv, heq⟩ := Option.map_eq_some_iff.1 hx
    obtain ⟨rfl, rfl⟩ := Prod.mk.inj heq
    cases o with
    | selectConv cid =>
      obtain ⟨-, rfl⟩ := Prod.mk.inj (Option.some.inj hconv)
      refine ⟨?_, rfl⟩
      cases r' with
      | none => trivial
      | some c => exact h.zero cid c (ConvState.find_of_selectConv hconv)
    | selectMember cid uid =>
      have hconv' := Option.some.inj hconv
      refine ⟨trivial, ?_⟩
      split at hconv' <;>
      · obtain ⟨-, rfl⟩ := Prod.mk.inj hconv'
        rfl
    | _ => exact ha.elim
  | message o =>
    obtain ⟨x, -, heq⟩ := Option.map_eq_some_iff.1 hx
    obtain ⟨-, rfl⟩ := Prod.mk.inj heq
    exact ⟨trivial, rfl⟩
  | listOrderedByUser uid =>
    obtain ⟨rfl, rfl⟩ := Prod.mk.inj (Option.some.inj hx)
    exact ⟨fun v hv ↦ h.views uid ch.null v (mem_of_mem_arriving hv), rfl⟩
  | lastMsgGet key =>
    refine ⟨trivial, ?_⟩
    simp only [ViewState.exec] at hx
    split at hx
    · split at hx <;>
      · obtain ⟨-, rfl⟩ := Prod.mk.inj (Option.some.inj hx)
        rfl
    · obtain ⟨-, rfl⟩ := Prod.mk.inj (Option.some.inj hx)
      rfl
  | lastMsgSet key preview_json =>
    refine ⟨trivial, ?_⟩
    simp only [ViewState.exec] at hx
    split at hx <;>
    · obtain ⟨-, rfl⟩ := Prod.mk.inj (Option.some.inj hx)
      rfl
  | getMultiUserInfo | callMessage | copyPreview | reply =>
    obtain ⟨-, rfl⟩ := Prod.mk.inj (Option.some.inj hx)
    exact ⟨trivial, rfl⟩

/-- A call of a thread. -/
theorem call (h : SeqInv ts s) {o : ViewOp lib.Text} {r : o.Res} (hi : ts[i]? = some t)
    (ha : t.allowed o) (hx : s.exec collate i o ch = some (r, s')) :
    t.admits o r ∧ SeqInv (ts.set i (t.next o r)) s' := by
  cases t with
  | conv t =>
    cases o with
    | conv o =>
      obtain ⟨⟨r', conv'⟩, hconv, heq⟩ := Option.map_eq_some_iff.1 hx
      obtain ⟨rfl, rfl⟩ := Prod.mk.inj heq
      have hheld := h.held i t hi
      refine ⟨ConvInv.admits hconv, zero_of_move h.zero hheld ha (.of_exec hconv), ?_⟩
      intro j u hu
      rcases Pool.getElem?_set_cases hu with ⟨-, heq⟩ | ⟨-, hold⟩
      · obtain rfl := ViewCall.conv.inj heq
        exact held_zero_of_next h.zero hheld hconv
      · exact h.held j u hold
    | _ => exact ha.elim
  | read ph =>
    obtain ⟨hadm, hconvs⟩ := h.read ha hx
    obtain ⟨ph', hph'⟩ := ViewCall.next_read ph o r
    refine ⟨hadm, fun cid c hc ↦ h.zero cid c (hconvs ▸ hc), fun j u hu ↦ h.held j u ?_⟩
    rw [hph'] at hu
    exact Pool.getElem?_of_set hu fun heq ↦ nomatch heq

/-- A thread that has done nothing yet. -/
theorem spawn (h : SeqInv ts s) (ht : t.Fresh) : SeqInv (ts ++ [t]) s where
  zero := h.zero
  held j u hu := by
    rcases Pool.getElem?_append_cases hu with ⟨-, rfl⟩ | ⟨-, hold⟩
    · rcases ht with ht | ⟨auth_uid, req, ht⟩
      · cases ht
      · obtain rfl := ViewCall.conv.inj ht
        exact fun c hc ↦ nomatch hc
    · exact h.held j u hold

end SeqInv

/-! ### Over a run -/

variable {lib : JsonLib} {cfg : ViewConfig}
  {G : Machine.Guard (ViewOp lib.Text) ViewOp.Res (ViewState lib.Text) ViewChoice ViewEv}

/-- Both invariants. -/
def SeqInv.With (I : List (ViewCall lib.Text) → ViewState lib.Text → Prop)
    (ts : List (ViewCall lib.Text)) (s : ViewState lib.Text) : Prop :=
  SeqInv ts s ∧ I ts s

/-- An event leaves the conversations. -/
theorem convs_of_env {e : ViewEv} {p p' : ViewPool lib.Text}
    (hx : ViewState.env lib cfg e p = some p') : p'.shared.conv.convs = p.shared.conv.convs := by
  cases e <;>
  · obtain rfl := Option.some.inj hx
    rfl

/-- **The rule for runs from empty tables.** What is said of threads and tables has to survive the
calls, the events, and new threads. -/
theorem view_invariant {I : List (ViewCall lib.Text) → ViewState lib.Text → Prop}
    {p : ViewPool lib.Text} (hr : (viewService lib cfg).Reach G ⟨[], {}⟩ p) (h₀ : I [] {})
    (hcall : ∀ {ts s i t o ch r s'}, I ts s → ts[i]? = some t → t.allowed o → G.onOp i o ch s →
      s.exec cfg.collate i o ch = some (r, s') → I (ts.set i (t.next o r)) s')
    (hevent : ∀ {ts e} {p p' : ViewPool lib.Text}, I ts p.shared → G.onEv e p →
      ViewState.env lib cfg e p = some p' → I ts p'.shared)
    (hspawn : ∀ {ts s} {t : ViewCall lib.Text}, I ts s → t.Fresh → I (ts ++ [t]) s) :
    ∃ ts, SeqInv ts p.shared ∧ I ts p.shared := by
  obtain ⟨ts, h, -⟩ : ∃ ts, SeqInv.With I ts p.shared ∧
      p.Meets (viewContract lib) (fun _ ↦ True) ts := by
    refine Machine.invariant hr ⟨[], ⟨⟨?_, ?_⟩, h₀⟩, .nil⟩ ?_ ?_
    · intro cid c hc
      cases hc
    · intro i t hi
      cases hi
    · intro ts s i t o ch r s' h hi ha hop hx
      obtain ⟨hadm, hseq⟩ := h.1.call hi ha hx
      exact ⟨hadm, hseq, hcall h.2 hi ha hop hx⟩
    · intro ts p e p' h hm hev hx
      have hI := hevent h.2 hev hx
      have hseq : SeqInv ts p'.shared :=
        ⟨fun cid c hc ↦ h.1.zero cid c (convs_of_env hx ▸ hc), h.1.held⟩
      cases e with
      | arrive auth_uid req =>
        obtain rfl := Option.some.inj hx
        have hfresh : (.conv ⟨auth_uid, req, none, none, [], none⟩ : ViewCall lib.Text).Fresh :=
          .inr ⟨auth_uid, req, rfl⟩
        exact ⟨_, ⟨hseq.spawn hfresh, hspawn hI hfresh⟩, hm.spawn (request_meets auth_uid req) _⟩
      | query rid auth_uid req =>
        obtain rfl := Option.some.inj hx
        exact ⟨_, ⟨hseq.spawn (.inl rfl), hspawn hI (.inl rfl)⟩,
          hm.spawn (handle_view_meets rid auth_uid req) _⟩
      | deliver msg redelivered =>
        obtain rfl := Option.some.inj hx
        exact ⟨_, ⟨hseq.spawn (.inl rfl), hspawn hI (.inl rfl)⟩,
          hm.spawn ((message_meets _ .idle).mono fun _ _ _ ↦ trivial) _⟩
      | crash i =>
        obtain rfl := Option.some.inj hx
        exact ⟨ts, ⟨hseq, hI⟩, hm.stop (fun _ ↦ trivial) i _⟩
      | recallMessage mid | deleteMessage mid | expire key =>
        obtain rfl := Option.some.inj hx
        exact ⟨ts, ⟨hseq, hI⟩, hm⟩
  exact ⟨ts, h⟩

/-! ### Concrete runs -/

/-- A step of a concrete run. -/
abbrev ViewLabel := Machine.Label ViewChoice ViewEv

/-- A call at which nothing fails, a number of times. -/
def viewCalls (i n : ℕ) : List ViewLabel := List.replicate n (.call i {})

/-- Alice makes a group with bob. -/
def aliceAndBob : List ViewLabel :=
  .event (.arrive "alice" (.create { type := .GROUP, member_ids := ["bob"] })) ::
  .call 0 { conv := { uuid := "1" } } :: viewCalls 0 7

/-- Thread `i` stores a message of alice in the group. -/
def aliceSays (i : ℕ) (message_id : Int64) (seq_id : UInt64) : List ViewLabel :=
  [.event (.deliver
    { message := { message_id, conversation_id := "g_1", sender_id := "alice", seq_id
                   content := { type := .TEXT, body := some (.text { text := "hi" }) } } } false),
    .call i {}]

/-- Thread `i` answers a query of bob, with a number of calls. -/
def bobAsks (i : ℕ) (req : ViewReq) (n : ℕ) : List ViewLabel :=
  .event (.query "r" "bob" req) :: viewCalls i n

end ChatNow
