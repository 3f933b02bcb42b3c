import ChatNow.Message.Contract
import ChatNow.Message.ReadBack
import ChatNow.Message.Reads

/-!
# What a recall hides

A message is stored by `onDBMessage`, which publishes an index event for a text; `onESIndexMessage`
writes the document, at any time and any number of times; and `RecallMessage` rewrites the row. The
row keeps its file, and nobody removes the document: after a recall the table is read with the text
removed and the file in place, and the index with the text in place.

`RecallHides` says of a message that no run gives its text, file id or file name away after it has
been recalled, whoever asks the message service for what. It holds of the texts that no keyword
matches, and of no other message (`recall_hides_iff`).
-/

namespace ChatNow

open Prog OnDBMessage MessageType

/-! ### The machine -/

/-- The document that `onESIndexMessage` writes. -/
def ESIndexEvent.doc (ev : ESIndexEvent) : EsMessage where
  user_id := ev.sender_id
  message_id := ev.message_id.toUInt64
  seq_id := ev.seq_id
  create_time := ev.created_at_ms / 1000
  chat_session_id := ev.conversation_id
  content := ev.content_text

/-- `ESMessage::appendData`: the document takes the place of the one with its id. -/
def EsMessage.appendData (docs : List EsMessage) (d : EsMessage) : List EsMessage :=
  d :: docs.filter (·.message_id ≠ d.message_id)

/-- The message service with its index. -/
structure IndexedState where
  db : MsgState := {}
  /-- The documents of the index `message`. -/
  docs : List EsMessage := []
  /-- The index events that are on their way. -/
  events : List ESIndexEvent := []
  /-- The messages that have been stored. -/
  stored : List InternalMessage := []

/-- What can happen beside the calls. -/
inductive IndexEv
  /-- A request arrives. -/
  | arrive (c : MsgCall)
  /-- A thread is gone. -/
  | crash (i : ℕ)
  /-- `onDBMessage` stores a message. -/
  | consume (m : InternalMessage)
  /-- `onESIndexMessage` gets the `n`-th event. Its write may or may not take place, and the event
  may come again. -/
  | index (n : ℕ) (writes again : Bool)

abbrev IndexPool := Pool MsgOp MsgOp.Res IndexedState

namespace IndexedState

/-- The effect of a call by thread `i`. -/
def exec (i : ℕ) (o : MsgOp) (c : MsgChoice) (s : IndexedState) : Option (o.Res × IndexedState) :=
  (s.db.exec i o c).map fun x ↦ (x.1, { s with db := x.2 })

/-- The index event of a stored message. -/
def published (m : InternalMessage) (e : Extracted) : List ESIndexEvent :=
  if m.message.content.type = TEXT ∧ e.content_text ≠ "" then [es_event m.message e.content_text]
  else []

/-- The message is stored, when no unique index refuses it. -/
def consume (s : IndexedState) (m : InternalMessage) : Option IndexedState :=
  match accepted_content m.message.content with
  | none => none
  | some e =>
    if conflicts id s.db.messages.rows (row_of m.message e) then none
    else (s.db.messages.insert (row_of m.message e)).map fun messages ↦
      { s with
        db := { s.db with messages }, events := s.events ++ published m e, stored := m :: s.stored }

/-- The event is handled. -/
def handle (s : IndexedState) (ev : ESIndexEvent) (n : ℕ) (writes again : Bool) : IndexedState :=
  { s with
    docs := if writes = true ∧ ev.message_type = TEXT then EsMessage.appendData s.docs ev.doc
            else s.docs
    events := if again then s.events else s.events.eraseIdx n }

/-- The effect of an event. -/
def env : IndexEv → IndexPool → Option IndexPool
  | .arrive c, p =>
    some ⟨p.threads ++ [c.text],
      { p.shared with db := { p.shared.db with calls := p.shared.db.calls ++ [c] } }⟩
  | .crash i, p => some ⟨p.threads.set i (.ret ()), p.shared⟩
  | .consume m, p => (p.shared.consume m).map fun s ↦ ⟨p.threads, s⟩
  | .index n writes again, p =>
    (p.shared.events[n]?).map fun ev ↦ ⟨p.threads, p.shared.handle ev n writes again⟩

/-- The tables as the RPCs read them. -/
def tables (s : IndexedState) (members : Table ConversationMember.key) : ReadTables where
  messages := s.db.messages.rows
  pins := s.db.pins
  members := members

end IndexedState

/-- The message service with its index. -/
def indexService : Machine MsgOp MsgOp.Res IndexedState MsgChoice IndexEv :=
  ⟨IndexedState.exec, IndexedState.env⟩

/-! ### What is given away -/

/-- The texts, file ids and file names in a message. -/
def Message.texts (x : Message) : List String :=
  [x.content.text.text, x.content.image.file_id, x.content.file.file_id, x.content.file.file_name,
    x.content.audio.file_id]

/-- The message shows a text, file id or file name of the content. -/
def OnDBMessage.Extracted.ShownBy (e : Extracted) (x : Message) : Prop :=
  ∃ text ∈ [e.content_text, e.file_id, e.file_name], text ≠ "" ∧ text ∈ x.texts

/-- No response shows the content of the message. -/
structure IndexedState.Hides (s : IndexedState) (es : EsMatch) (mid : Int64) (e : Extracted) :
    Prop where
  history : ∀ members c uid req rsp, (s.tables members).GetHistory c uid req = .ok rsp →
    ∀ x ∈ rsp.messages, x.message_id = mid → ¬e.ShownBy x
  sync : ∀ members c uid req rsp, (s.tables members).SyncMessages c uid req = .ok rsp →
    ∀ x ∈ rsp.messages, x.message_id = mid → ¬e.ShownBy x
  by_id : ∀ members c uid req rsp, (s.tables members).GetMessagesById c uid req = .ok rsp →
    ∀ x ∈ rsp, x.message_id = mid → ¬e.ShownBy x
  search : ∀ members c uid req rsp,
    (s.tables members).SearchMessages c es s.docs uid req = .ok rsp →
      ∀ x ∈ rsp, x.message_id = mid → ¬e.ShownBy x
  pinned : ∀ members c uid req rsp, (s.tables members).ListPinnedMessages c uid req = .ok rsp →
    ∀ x ∈ rsp, x.message_id = mid → ¬e.ShownBy x

/-- A call of `RecallMessage` for the message has succeeded. -/
def IndexedState.Recalled (s : IndexedState) (mid : Int64) : Prop :=
  ∃ i uid req, s.db.calls[i]? = some (.recalls uid req) ∧ req.message_id = mid ∧
    (i, .ok ()) ∈ s.db.answers

/-- No index event of the message is on its way. -/
def IndexedState.Processed (s : IndexedState) (mid : Int64) : Prop :=
  ∀ ev ∈ s.events, ev.message_id ≠ mid

/-- Whatever happens, the content of the message is hidden once it has been recalled and its index
events have been handled. -/
def RecallHides (es : EsMatch) (m : InternalMessage) (e : Extracted) : Prop :=
  ∀ p, indexService.Reach .any ⟨[], {}⟩ p → m ∈ p.shared.stored →
    p.shared.Recalled m.message.message_id → p.shared.Processed m.message.message_id →
    p.shared.Hides es m.message.message_id e

/-! ### What the responses are made of -/

section Reads

variable {t : ReadTables} {c : ReadChoice} {uid : String} {x : Message}

theorem mem_of_mem_insertionSort {r : MessageRow → MessageRow → Prop} [DecidableRel r]
    {rows : List MessageRow} {a : MessageRow} (h : a ∈ rows.insertionSort r) : a ∈ rows :=
  (List.mem_insertionSort r).1 h

theorem ok_of_bind {α β ε : Type} {p : Except ε α} {f : α → Except ε β} {b : β}
    (h : (p >>= f) = .ok b) : ∃ a, p = .ok a ∧ f a = .ok b := by
  cases p with
  | error e => cases h
  | ok a => exact ⟨a, rfl, h⟩

theorem mem_of_mem_page {limit : ℕ} {rows : List MessageRow} {r : MessageRow}
    (h : r ∈ (SyncMessages.page limit rows).1) : r ∈ rows :=
  (SyncMessages.page_isPrefix limit rows).subset h

theorem history_rows {req : GetHistoryReq} {rsp : GetHistoryRsp}
    (h : t.GetHistory c uid req = .ok rsp) (hx : x ∈ rsp.messages) :
    ∃ r ∈ t.messages, x = convert_db_message_to_proto_ r := by
  obtain ⟨_, -, h⟩ := ok_of_bind h
  split at h
  · cases h
  · obtain ⟨_, -, h⟩ := ok_of_bind h
    obtain rfl := Except.ok.inj h
    obtain ⟨r, hr, rfl⟩ := List.mem_map.1 hx
    have hmem := List.mem_of_mem_take (mem_of_mem_arriving (mem_of_mem_page hr))
    exact ⟨r, (List.mem_filter.1 (mem_of_mem_insertionSort hmem)).1, rfl⟩

theorem sync_rows {req : SyncMessagesReq} {rsp : SyncMessagesRsp}
    (h : t.SyncMessages c uid req = .ok rsp) (hx : x ∈ rsp.messages) :
    ∃ r ∈ t.messages, x = convert_db_message_to_proto_ r := by
  obtain ⟨_, -, h⟩ := ok_of_bind h
  obtain ⟨_, -, h⟩ := ok_of_bind h
  obtain rfl := Except.ok.inj h
  obtain ⟨r, hr, rfl⟩ := List.mem_map.1 hx
  have hmem := List.mem_of_mem_take (mem_of_mem_arriving (mem_of_mem_page hr))
  exact ⟨r, (List.mem_filter.1 (mem_of_mem_insertionSort hmem)).1, rfl⟩

theorem by_id_rows {req : GetMessagesByIdReq} {rsp : List Message}
    (h : t.GetMessagesById c uid req = .ok rsp) (hx : x ∈ rsp) :
    ∃ r ∈ t.messages, x = convert_db_message_to_proto_ r := by
  obtain ⟨_, -, h⟩ := ok_of_bind h
  obtain rfl := Except.ok.inj h
  obtain ⟨r, hr, rfl⟩ := List.mem_map.1 hx
  have hmem := mem_of_mem_arriving (List.mem_filter.1 hr).1
  exact ⟨r, (List.mem_filter.1 (mem_of_mem_insertionSort hmem)).1, rfl⟩

theorem pinned_rows {req : ListPinnedReq} {rsp : List Message}
    (h : t.ListPinnedMessages c uid req = .ok rsp) (hx : x ∈ rsp) :
    ∃ r ∈ t.messages, x = convert_db_message_to_proto_ r := by
  obtain ⟨_, -, h⟩ := ok_of_bind h
  obtain rfl := Except.ok.inj h
  obtain ⟨r, hr, rfl⟩ := List.mem_map.1 hx
  have hmem := mem_of_mem_arriving (List.mem_filter.1 hr).1
  exact ⟨r, (List.mem_filter.1 (mem_of_mem_insertionSort hmem)).1, rfl⟩

theorem search_docs {es : EsMatch} {docs : List EsMessage} {req : SearchMessagesReq}
    {rsp : List Message} (h : t.SearchMessages c es docs uid req = .ok rsp) (hx : x ∈ rsp) :
    req.keyword ≠ "" ∧ ∃ d ∈ docs, es req.keyword d.content = true ∧
      x = convert_db_message_to_proto_ d.row := by
  simp only [ReadTables.SearchMessages] at h
  split at h
  · cases h
  · next hkey =>
    refine ⟨hkey, ?_⟩
    obtain ⟨_, -, h⟩ := ok_of_bind h
    obtain ⟨_, -, h⟩ := ok_of_bind h
    split at h
    · obtain rfl := Except.ok.inj h
      exact absurd hx List.not_mem_nil
    · obtain rfl := Except.ok.inj h
      obtain ⟨r, hr, rfl⟩ := List.mem_map.1 hx
      obtain ⟨d, hd, rfl⟩ := List.mem_map.1 hr
      have hmem := (List.mem_insertionSort _).1 (List.mem_of_mem_take hd)
      obtain ⟨hd', hmatch⟩ := List.mem_filter.1 hmem
      exact ⟨d, hd', (of_decide_eq_true hmatch).2.1, rfl⟩

end Reads

/-! ### What is stored -/

/-- The content was accepted from a message that has been stored. -/
def IndexedState.Content (s : IndexedState) (m : InternalMessage) (e : Extracted) : Prop :=
  m ∈ s.stored ∧ accepted_content m.message.content = some e

/-- The row is that of a stored message, recalled or not. -/
def IndexedState.Made (s : IndexedState) (r : MessageRow) : Prop :=
  ∃ m e, s.Content m e ∧ (r = row_of m.message e ∨ r = (row_of m.message e).recalled)

/-- The event is that of a stored text. -/
def IndexedState.Announced (s : IndexedState) (ev : ESIndexEvent) : Prop :=
  ∃ m e, s.Content m e ∧ m.message.content.type = TEXT ∧ e.content_text ≠ "" ∧
    ev = es_event m.message e.content_text

/-- The row is there, and recalled. -/
def MsgState.RowRecalled (s : MsgState) (mid : UInt64) : Prop :=
  ∃ r, s.messages.find mid = some r ∧ r.status = .REVOKED

/-- The call has recalled its message. -/
def MsgPhase.HasRecalled : MsgPhase → Prop
  | decided ok => ok = true
  | announced => True
  | closed (.ok _) => True
  | _ => False

/-- The tables, the index and the calls agree with what has been stored. -/
structure StoreInv (ts : List MsgThread) (s : IndexedState) : Prop where
  calls : s.db.calls = ts.map (·.call)
  /-- The rows are those of stored messages, no two with one id. -/
  made : ∀ r ∈ s.db.messages.rows, s.Made r
  present : ∀ m ∈ s.stored, (s.db.messages.find m.message.message_id.toUInt64).isSome = true
  unique : ∀ m ∈ s.stored, ∀ m' ∈ s.stored, m.message.message_id = m'.message.message_id → m = m'
  /-- A recall writes back the row of a stored message. -/
  holds : ∀ (i : ℕ) uid req m₀, ts[i]? = some ⟨.recalls uid req, .holds m₀⟩ →
    m₀.message_id = req.mid ∧ ∃ m e, s.Content m e ∧ m₀ = row_of m.message e
  recalled : ∀ (i : ℕ) uid req phase, ts[i]? = some ⟨.recalls uid req, phase⟩ → phase.HasRecalled →
    s.db.RowRecalled req.mid
  answers : ∀ i, (i, .ok ()) ∈ s.db.answers → ∃ t, ts[i]? = some t ∧ t.phase = .closed (.ok ())
  events : ∀ ev ∈ s.events, s.Announced ev
  docs : ∀ d ∈ s.docs, ∃ ev, s.Announced ev ∧ d = ev.doc

section Steps

variable {ts : List MsgThread} {s s' : IndexedState} {i : ℕ} {t : MsgThread} {phase : MsgPhase}

/-- The step of a thread. -/
theorem StoreInv.move (h : StoreInv ts s) (hi : ts[i]? = some t) {db : MsgState}
    (hcalls : db.calls = s.db.calls) (hmade : ∀ r ∈ db.messages.rows, s.Made r)
    (hpresent : ∀ mid, (s.db.messages.find mid).isSome = true →
      (db.messages.find mid).isSome = true)
    (hrow : ∀ mid, s.db.RowRecalled mid → db.RowRecalled mid)
    (hholds : ∀ uid req m₀, t.call = .recalls uid req → phase = .holds m₀ →
      m₀.message_id = req.mid ∧ ∃ m e, s.Content m e ∧ m₀ = row_of m.message e)
    (hrecalled : ∀ uid req, t.call = .recalls uid req → phase.HasRecalled →
      db.RowRecalled req.mid)
    (hanswers : ∀ j, (j, .ok ()) ∈ db.answers → j ≠ i → (j, .ok ()) ∈ s.db.answers)
    (hclosed : (i, .ok ()) ∈ db.answers → phase = .closed (.ok ())) :
    StoreInv (ts.set i { t with phase }) { s with db } where
  calls := by
    show db.calls = _
    rw [hcalls, h.calls]
    exact (Pool.map_set_eq (u := { t with phase }) (f := MsgThread.call) hi rfl).symm
  made := hmade
  present m hm := hpresent _ (h.present m hm)
  unique := h.unique
  holds j uid req m₀ hj := by
    rcases Pool.getElem?_set_cases hj with ⟨rfl, heq⟩ | ⟨-, hj⟩
    · obtain ⟨hcall, hph⟩ := MsgThread.mk.inj heq
      exact hholds uid req m₀ hcall.symm hph.symm
    · exact h.holds j uid req m₀ hj
  recalled j uid req ph hj hph := by
    rcases Pool.getElem?_set_cases hj with ⟨rfl, heq⟩ | ⟨-, hj⟩
    · obtain ⟨hcall, rfl⟩ := MsgThread.mk.inj heq
      exact hrecalled uid req hcall.symm hph
    · exact hrow _ (h.recalled j uid req ph hj hph)
  answers j hj := by
    rcases eq_or_ne j i with rfl | hji
    · exact ⟨_, Pool.getElem?_set_self hi, hclosed hj⟩
    · rw [List.getElem?_set_ne hji.symm]
      exact h.answers j (hanswers j hj hji)
  events := h.events
  docs := h.docs

/-- A thread that has not responded has no answer. -/
theorem StoreInv.not_answered (h : StoreInv ts s) (hi : ts[i]? = some t)
    (hopen : ∀ rsp, t.phase ≠ .closed rsp) : (i, .ok ()) ∉ s.db.answers := by
  intro hmem
  obtain ⟨t', hi', hclosed⟩ := h.answers i hmem
  obtain rfl := Option.some.inj (hi.symm.trans hi')
  exact hopen _ hclosed

/-- A step before the response that writes no message. -/
theorem StoreInv.step (h : StoreInv ts s) (hi : ts[i]? = some t) {db : MsgState}
    (hopen : ∀ rsp, t.phase ≠ .closed rsp) (hcalls : db.calls = s.db.calls)
    (hmessages : db.messages = s.db.messages) (hanswers : db.answers = s.db.answers)
    (hholds : ∀ uid req m₀, t.call = .recalls uid req → phase = .holds m₀ →
      m₀.message_id = req.mid ∧ ∃ m e, s.Content m e ∧ m₀ = row_of m.message e)
    (hrecalled : ∀ uid req, t.call = .recalls uid req → phase.HasRecalled →
      s.db.RowRecalled req.mid) : StoreInv (ts.set i { t with phase }) { s with db } := by
  have hrow (mid : UInt64) : s.db.RowRecalled mid → db.RowRecalled mid := by
    rw [MsgState.RowRecalled, MsgState.RowRecalled, hmessages]
    exact id
  refine h.move hi hcalls ?_ ?_ hrow hholds (fun uid req hc hp ↦ hrow _ (hrecalled uid req hc hp))
    (fun j hj _ ↦ ?_) fun hj ↦ ?_
  · rw [hmessages]
    exact h.made
  · rw [hmessages]
    exact fun _ ↦ id
  · rwa [hanswers] at hj
  · rw [hanswers] at hj
    exact absurd hj (h.not_answered hi hopen)

/-- A step of a call that is no recall. -/
theorem StoreInv.other (h : StoreInv ts s) (hi : ts[i]? = some t) {db : MsgState}
    (hopen : ∀ rsp, t.phase ≠ .closed rsp) (hcall : ∀ uid req, t.call ≠ .recalls uid req)
    (hcalls : db.calls = s.db.calls) (hmessages : db.messages = s.db.messages)
    (hanswers : db.answers = s.db.answers) :
    StoreInv (ts.set i { t with phase }) { s with db } :=
  h.step hi hopen hcalls hmessages hanswers (fun uid req _ hc _ ↦ absurd hc (hcall uid req))
    fun uid req hc _ ↦ absurd hc (hcall uid req)

/-- The commit of a recall: what is written back is the row of a stored message, recalled. -/
theorem storeInv_update {m : MessageRow} {c : MsgChoice} {ok : Bool} {db : MsgState}
    (h : StoreInv ts s) (hi : ts[i]? = some t) (ha : msgContract.allowed t (.updateRecalled m))
    (hx : s.db.exec i (.updateRecalled m) c = some (ok, db)) :
    StoreInv (ts.set i { t with phase := .decided ok }) { s with db } := by
  obtain ⟨uid, req, m₀, rfl, rfl⟩ := ha
  obtain ⟨hmid, m, e, hcontent, hrow⟩ := h.holds i uid req m₀ hi
  have hopen : ∀ rsp, MsgPhase.holds m₀ ≠ .closed rsp := fun _ ↦ MsgPhase.noConfusion
  have hlost : StoreInv (ts.set i ⟨.recalls uid req, .decided false⟩) s :=
    h.step hi hopen rfl rfl rfl (fun _ _ _ _ ↦ MsgPhase.noConfusion)
      fun _ _ _ hp ↦ absurd hp Bool.false_ne_true
  simp only [MsgState.exec] at hx
  cases hfind : s.db.messages.find m₀.recalled.message_id with
  | none =>
    rw [hfind] at hx
    obtain ⟨rfl, rfl⟩ := Prod.mk.inj (Option.some.inj hx)
    exact hlost
  | some r =>
    rw [hfind] at hx
    obtain ⟨rfl, rfl⟩ := Prod.mk.inj (Option.some.inj hx)
    by_cases hacts : c.acts = true
    swap
    · rw [if_neg hacts, MsgChoice.fault_of_not_acts hacts]
      exact hlost
    rw [if_pos hacts]
    have hself : (s.db.messages.write m₀.recalled).find req.mid = some m₀.recalled :=
      hmid ▸ Table.find_write_self hfind
    refine h.move hi rfl (fun r hr ↦ ?_) (fun mid hmid ↦ ?_) (fun mid hr ↦ ?_)
      (fun _ _ _ _ ↦ MsgPhase.noConfusion) (fun uid' req' hcall _ ↦ ?_) (fun j hj _ ↦ hj)
      fun hj ↦ absurd hj (h.not_answered hi hopen)
    · obtain ⟨r', hr', rfl⟩ := List.mem_map.1 hr
      split
      · exact ⟨m, e, hcontent, .inr (by rw [hrow])⟩
      · exact h.made r' hr'
    · show ((s.db.messages.write m₀.recalled).find mid).isSome = true
      rw [Table.find_write, Option.isSome_map]
      exact hmid
    · obtain ⟨r', hr', hst⟩ := hr
      show ∃ r, (s.db.messages.write m₀.recalled).find mid = some r ∧ _
      rw [Table.find_write, hr']
      refine ⟨_, rfl, ?_⟩
      split
      · rfl
      · exact hst
    · obtain ⟨-, rfl⟩ := MsgCall.recalls.inj hcall
      exact ⟨m₀.recalled, hself, rfl⟩

/-- **Every call of a thread** keeps the invariant. -/
theorem storeInv_call {o : MsgOp} {c : MsgChoice} {r : o.Res} (h : StoreInv ts s)
    (hi : ts[i]? = some t) (ha : msgContract.allowed t o) (hx : s.exec i o c = some (r, s')) :
    StoreInv (ts.set i (msgContract.next t o r)) s' := by
  obtain ⟨⟨r', db⟩, hdb, heq⟩ := Option.map_eq_some_iff.1 hx
  obtain ⟨rfl, rfl⟩ := Prod.mk.inj heq
  have hstay : StoreInv (ts.set i t) s := by
    refine h.move hi rfl h.made (fun _ ↦ id) (fun _ ↦ id) (fun uid req m₀ hc hp ↦ ?_)
      (fun uid req hc hp ↦ ?_) (fun j hj _ ↦ hj) fun hj ↦ ?_
    · exact h.holds i uid req m₀ (by rw [hi, ← hc, ← hp])
    · exact h.recalled i uid req t.phase (by rw [hi, ← hc]) hp
    · obtain ⟨t', hi', hclosed⟩ := h.answers i hj
      obtain rfl := Option.some.inj (hi.symm.trans hi')
      exact hclosed
  cases o with
  | now_ms | clock | selectById | selectSelf =>
    obtain ⟨-, rfl⟩ := Prod.mk.inj (Option.some.inj hdb)
    exact hstay
  | selectNormal mid =>
    obtain ⟨uid, req, rfl, rfl⟩ := ha
    obtain ⟨hr, rfl⟩ := Prod.mk.inj (Option.some.inj hdb)
    have hopen : ∀ rsp, MsgPhase.idle ≠ .closed rsp := fun _ ↦ MsgPhase.noConfusion
    cases r' with
    | none =>
      exact h.step hi hopen rfl rfl rfl (fun _ _ _ _ ↦ MsgPhase.noConfusion)
        fun _ _ _ hp ↦ absurd hp Bool.false_ne_true
    | some m₀ =>
      obtain ⟨hfind, hst⟩ := Option.filter_eq_some_iff.1 (Option.ite_none_left_eq_some.1 hr).2
      refine h.step hi hopen rfl rfl rfl (fun uid' req' m' hcall hp ↦ ?_)
        fun _ _ _ hp ↦ absurd hp id
      obtain ⟨-, rfl⟩ := MsgCall.recalls.inj hcall
      obtain rfl := MsgPhase.holds.inj hp
      refine ⟨Table.key_of_find hfind, ?_⟩
      obtain ⟨m, e, hcontent, rfl | rfl⟩ := h.made m₀ (Table.mem_of_find hfind)
      · exact ⟨m, e, hcontent, rfl⟩
      · exact absurd (of_decide_eq_true hst) RowStatus.noConfusion
  | updateRecalled m => exact storeInv_update h hi ha hdb
  | countPins cid =>
    obtain ⟨uid, req, rfl, rfl⟩ := ha
    obtain ⟨-, rfl⟩ := Prod.mk.inj (Option.some.inj hdb)
    refine h.other hi (fun _ ↦ MsgPhase.noConfusion) (fun _ _ ↦ MsgCall.noConfusion) ?_ ?_ ?_ <;>
      split <;> rfl
  | insertPin p =>
    obtain ⟨uid, req, n, rfl, -, -⟩ := ha
    refine h.other hi (fun _ ↦ MsgPhase.noConfusion) (fun _ _ ↦ MsgCall.noConfusion) ?_ ?_ ?_ <;>
    · simp only [MsgState.exec] at hdb
      split at hdb
      · obtain ⟨-, rfl⟩ := Prod.mk.inj (Option.some.inj hdb)
        rfl
      · obtain ⟨-, rfl⟩ := Prod.mk.inj (Option.some.inj hdb)
        split <;> rfl
  | removePin cid mid =>
    obtain ⟨uid, req, rfl⟩ := ha
    obtain ⟨-, rfl⟩ := Prod.mk.inj (Option.some.inj hdb)
    refine h.other hi (fun _ ↦ MsgPhase.noConfusion) (fun _ _ ↦ MsgCall.noConfusion) ?_ ?_ ?_ <;>
      split <;> rfl
  | publish n =>
    obtain ⟨-, rfl⟩ := Prod.mk.inj (Option.some.inj hdb)
    obtain ⟨call, ph⟩ := t
    have hopen : ∀ rsp, ph ≠ .closed rsp := by
      rintro rsp rfl
      cases call <;> exact ha
    refine h.step hi hopen rfl rfl rfl (fun _ _ _ _ ↦ MsgPhase.noConfusion) fun uid req hcall _ ↦ ?_
    obtain rfl : call = .recalls uid req := hcall
    cases ph with
    | decided ok => exact h.recalled i uid req _ hi ha.1
    | idle | holds | counted | done | announced | closed => exact absurd ha id
  | respond rsp =>
    obtain ⟨-, rfl⟩ := Prod.mk.inj (Option.some.inj hdb)
    refine h.move hi rfl h.made (fun _ ↦ id) (fun _ ↦ id) (fun _ _ _ _ ↦ MsgPhase.noConfusion)
      (fun uid req hcall hp ↦ ?_) (fun j hj hji ↦ ?_) fun hj ↦ ?_
    · cases rsp with
      | error e => exact absurd hp id
      | ok _ =>
        have hph : t.phase = .announced := ha
        exact h.recalled i uid req .announced (by rw [hi, ← hcall, ← hph]) trivial
    · rcases List.mem_cons.1 hj with heq | hj
      · exact absurd (Prod.mk.inj heq).1 hji
      · exact hj
    · rcases List.mem_cons.1 hj with heq | hj
      · rw [(Prod.mk.inj heq).2]
      · refine absurd hj (h.not_answered hi ?_)
        rintro rsp' hph
        obtain ⟨call, ph⟩ := t
        obtain rfl : ph = .closed rsp' := hph
        cases rsp with
        | error e => cases call <;> exact ha
        | ok _ => exact MsgPhase.noConfusion ha

/-- A message is stored, under an id that no row has. -/
theorem storeInv_consume {m : InternalMessage} (h : StoreInv ts s) (hx : s.consume m = some s') :
    StoreInv ts s' := by
  rw [IndexedState.consume] at hx
  split at hx
  · cases hx
  · next e he =>
    split at hx
    · cases hx
    · obtain ⟨messages, hins, rfl⟩ := Option.map_eq_some_iff.1 hx
      obtain ⟨hnone, hrows⟩ := Table.rows_of_insert hins
      have hcontent {m' : InternalMessage} {e' : Extracted} (hc : s.Content m' e') :
          m' ∈ m :: s.stored ∧ accepted_content m'.message.content = some e' :=
        ⟨List.mem_cons_of_mem _ hc.1, hc.2⟩
      have hnew : ∀ m' ∈ s.stored, m'.message.message_id ≠ m.message.message_id := by
        intro m' hm' heq
        have hsome := h.present m' hm'
        have hfree : s.db.messages.find m.message.message_id.toUInt64 = none := hnone
        rw [heq, hfree] at hsome
        cases hsome
      exact {
        calls := h.calls
        made := fun r hr ↦ by
          have hr' : r ∈ s.db.messages.rows ++ [row_of m.message e] := hrows ▸ hr
          rcases List.mem_append.1 hr' with hr | hr
          · obtain ⟨m', e', hc, heq⟩ := h.made r hr
            exact ⟨m', e', hcontent hc, heq⟩
          · obtain rfl := List.mem_singleton.1 hr
            exact ⟨m, e, ⟨List.mem_cons_self, he⟩, .inl rfl⟩
        present := fun m' hm' ↦ by
          show (messages.find _).isSome = true
          rw [Table.find_insert hins]
          split
          · rfl
          · next hne =>
            rcases List.mem_cons.1 hm' with rfl | hm'
            · exact absurd rfl hne
            · exact h.present m' hm'
        unique := fun m₁ h₁ m₂ h₂ heq ↦ by
          rcases List.mem_cons.1 h₁ with rfl | hold₁
          · rcases List.mem_cons.1 h₂ with rfl | hold₂
            · rfl
            · exact absurd heq.symm (hnew m₂ hold₂)
          · rcases List.mem_cons.1 h₂ with rfl | hold₂
            · exact absurd heq (hnew m₁ hold₁)
            · exact h.unique m₁ hold₁ m₂ hold₂ heq
        holds := fun i uid req m₀ hi ↦ by
          obtain ⟨hmid, m', e', hc, heq⟩ := h.holds i uid req m₀ hi
          exact ⟨hmid, m', e', hcontent hc, heq⟩
        recalled := fun i uid req phase hi hph ↦ by
          obtain ⟨r, hr, hst⟩ := h.recalled i uid req phase hi hph
          refine ⟨r, ?_, hst⟩
          show messages.find _ = _
          rw [Table.find_insert hins, if_neg, hr]
          intro heq
          rw [heq, hr] at hnone
          cases hnone
        answers := h.answers
        events := fun ev hev ↦ by
          rcases List.mem_append.1 hev with hev | hev
          · obtain ⟨m', e', hc, hrest⟩ := h.events ev hev
            exact ⟨m', e', hcontent hc, hrest⟩
          · rw [IndexedState.published] at hev
            split at hev
            · next htext =>
              obtain rfl := List.mem_singleton.1 hev
              exact ⟨m, e, ⟨List.mem_cons_self, he⟩, htext.1, htext.2, rfl⟩
            · exact absurd hev List.not_mem_nil
        docs := fun d hd ↦ by
          obtain ⟨ev, ⟨m', e', hc, hrest⟩, hdoc⟩ := h.docs d hd
          exact ⟨ev, ⟨m', e', hcontent hc, hrest⟩, hdoc⟩ }

/-- An index event is handled. -/
theorem storeInv_handle {ev : ESIndexEvent} {n : ℕ} {writes again : Bool} (h : StoreInv ts s)
    (hev : ev ∈ s.events) : StoreInv ts (s.handle ev n writes again) where
  calls := h.calls
  made := h.made
  present := h.present
  unique := h.unique
  holds := h.holds
  recalled := h.recalled
  answers := h.answers
  events ev' hev' := by
    refine h.events ev' ?_
    simp only [IndexedState.handle] at hev'
    split at hev'
    · exact hev'
    · exact List.mem_of_mem_eraseIdx hev'
  docs d hd := by
    simp only [IndexedState.handle] at hd
    split at hd
    · rcases List.mem_cons.1 hd with rfl | hd
      · exact ⟨ev, h.events ev hev, rfl⟩
      · exact h.docs d (List.mem_filter.1 hd).1
    · exact h.docs d hd

/-- A request arrives. -/
theorem storeInv_arrive (h : StoreInv ts s) (c : MsgCall) :
    StoreInv (ts ++ [⟨c, .idle⟩]) { s with db := { s.db with calls := s.db.calls ++ [c] } } where
  calls := by
    rw [h.calls, List.map_append]
    rfl
  made := h.made
  present := h.present
  unique := h.unique
  holds i uid req m₀ hi :=
    h.holds i uid req m₀ (Pool.getElem?_of_append hi fun heq ↦
      MsgPhase.noConfusion (MsgThread.mk.inj heq).2)
  recalled i uid req phase hi hph := by
    rcases Pool.getElem?_append_cases hi with ⟨-, heq⟩ | ⟨-, hi⟩
    · obtain ⟨-, rfl⟩ := MsgThread.mk.inj heq
      exact absurd hph id
    · exact h.recalled i uid req phase hi hph
  answers i hi := by
    obtain ⟨t, ht, hclosed⟩ := h.answers i hi
    exact ⟨t, Pool.getElem?_append_of_some ht, hclosed⟩
  events := h.events
  docs := h.docs

/-- **Every event** keeps the invariant. -/
theorem storeInv_event {p p' : IndexPool} {ev : IndexEv} (h : StoreInv ts p.shared)
    (hm : p.Meets msgContract (fun _ ↦ True) ts) (hx : IndexedState.env ev p = some p') :
    ∃ ts', StoreInv ts' p'.shared ∧ p'.Meets msgContract (fun _ ↦ True) ts' := by
  cases ev with
  | arrive c =>
    obtain rfl := Option.some.inj hx
    exact ⟨_, storeInv_arrive h c, hm.spawn c.text_meets _⟩
  | crash i =>
    obtain rfl := Option.some.inj hx
    exact ⟨ts, h, hm.stop (fun _ ↦ trivial) i _⟩
  | consume m =>
    obtain ⟨s', hs', rfl⟩ := Option.map_eq_some_iff.1 hx
    exact ⟨ts, storeInv_consume h hs', hm⟩
  | index n writes again =>
    obtain ⟨ev, hev, rfl⟩ := Option.map_eq_some_iff.1 hx
    exact ⟨ts, storeInv_handle h (List.mem_of_getElem? hev), hm⟩

end Steps

theorem storeInv_nil : StoreInv [] {} where
  calls := rfl
  made _ hr := absurd hr List.not_mem_nil
  present _ hm := absurd hm List.not_mem_nil
  unique _ hm := absurd hm List.not_mem_nil
  holds _ _ _ _ hi := by cases hi
  recalled _ _ _ _ hi := by cases hi
  answers _ hi := absurd hi List.not_mem_nil
  events _ hev := absurd hev List.not_mem_nil
  docs _ hd := absurd hd List.not_mem_nil

/-- **Every run** keeps the invariant. -/
theorem storeInv_run {p : IndexPool} (hr : indexService.Reach .any ⟨[], {}⟩ p) :
    ∃ ts, StoreInv ts p.shared := by
  obtain ⟨ts, h, -⟩ : ∃ ts, StoreInv ts p.shared ∧ p.Meets msgContract (fun _ ↦ True) ts := by
    refine Machine.invariant hr ⟨[], storeInv_nil, .nil⟩ ?_ ?_
    · intro ts s i t o c r s' h hi ha _ hx
      obtain ⟨⟨r', db⟩, hdb, heq⟩ := Option.map_eq_some_iff.1 hx
      obtain ⟨rfl, -⟩ := Prod.mk.inj heq
      exact ⟨msgContract_admits hdb, storeInv_call h hi ha hx⟩
    · intro ts p e p' h hm _ hx
      exact storeInv_event h hm hx
  exact ⟨ts, h⟩

/-! ### Texts that no keyword matches -/

section Hidden

variable {ts : List MsgThread} {s : IndexedState} {m : InternalMessage} {e : Extracted}

/-- A stored message is told by its id. -/
theorem StoreInv.eq_of_id (h : StoreInv ts s) (hc : s.Content m e) {m' : InternalMessage}
    {e' : Extracted} (hc' : s.Content m' e')
    (hid : m'.message.message_id = m.message.message_id) : m' = m ∧ e' = e := by
  obtain rfl := h.unique m' hc'.1 m hc.1 hid
  exact ⟨rfl, Option.some.inj (hc'.2.symm.trans hc.2)⟩

/-- The row of a message that has been recalled. -/
theorem StoreInv.row_of_recalled (h : StoreInv ts s) (hc : s.Content m e)
    (hrecalled : s.Recalled m.message.message_id) {r : MessageRow} (hr : r ∈ s.db.messages.rows)
    (hid : r.message_id = m.message.message_id.toUInt64) : r = (row_of m.message e).recalled := by
  obtain ⟨i, uid, req, hcall, hmid, hok⟩ := hrecalled
  obtain ⟨⟨c, phase⟩, ht, hclosed⟩ := h.answers i hok
  rw [h.calls, List.getElem?_map, ht] at hcall
  obtain rfl : c = .recalls uid req := Option.some.inj hcall
  obtain rfl : phase = .closed (.ok ()) := hclosed
  obtain ⟨r', hr', hst⟩ := h.recalled i uid req _ ht trivial
  have hfind : s.db.messages.find req.mid = some r :=
    (Table.find_eq_some _).2 ⟨hr, by rw [hid, ← hmid]; rfl⟩
  obtain rfl := Option.some.inj (hfind.symm.trans hr')
  obtain ⟨m', e', hc', heq⟩ := h.made r hr
  have hid' : m'.message.message_id.toUInt64 = m.message.message_id.toUInt64 := by
    rcases heq with rfl | rfl <;> exact hid
  have hsame : m'.message.message_id = m.message.message_id := by
    rw [← Int64.toInt64_toUInt64 m'.message.message_id, hid', Int64.toInt64_toUInt64]
  obtain ⟨rfl, rfl⟩ := h.eq_of_id hc hc' hsame
  rcases heq with rfl | rfl
  · exact absurd hst RowStatus.noConfusion
  · rfl

/-- What a text message leaves in its row when it is recalled. -/
theorem not_shownBy_recalled (htext : m.message.content.type = TEXT)
    (he : accepted_content m.message.content = some e) :
    ¬e.ShownBy (convert_db_message_to_proto_ (row_of m.message e).recalled) := by
  have hext := accepted_content_eq he
  rw [extract_content, if_pos htext] at hext
  obtain rfl := Option.some.inj hext
  rintro ⟨text, -, hne, hmem⟩
  have hbody : (convert_db_message_to_proto_
      (row_of m.message { content_text := m.message.content.text.text }).recalled).content =
        { type := TEXT, body := some (.text { text := "" }) } := by
    simp only [convert_db_message_to_proto_, row_of, MessageRow.recalled, htext]
    rfl
  rw [Message.texts, hbody] at hmem
  exact hne (List.eq_of_mem_replicate (n := 5) hmem)

/-- **A text that no keyword matches is hidden**. -/
theorem StoreInv.hides {es : EsMatch} (h : StoreInv ts s) (hc : s.Content m e)
    (htext : m.message.content.type = TEXT)
    (hsearch : e.content_text = "" ∨ ∀ key, key ≠ "" → es key e.content_text = false)
    (hrecalled : s.Recalled m.message.message_id) : s.Hides es m.message.message_id e := by
  have hrow {x : Message} (hx : ∃ r ∈ s.db.messages.rows, x = convert_db_message_to_proto_ r)
      (hid : x.message_id = m.message.message_id) : ¬e.ShownBy x := by
    obtain ⟨r, hr, rfl⟩ := hx
    have hrid : r.message_id = m.message.message_id.toUInt64 := by
      rw [← hid]
      exact (UInt64.toUInt64_toInt64 _).symm
    rw [h.row_of_recalled hc hrecalled hr hrid]
    exact not_shownBy_recalled htext hc.2
  refine ⟨fun members c uid req rsp hrsp x hx ↦ ?_, fun members c uid req rsp hrsp x hx ↦ ?_,
    fun members c uid req rsp hrsp x hx ↦ ?_, fun members c uid req rsp hrsp x hx hid ↦ ?_,
    fun members c uid req rsp hrsp x hx ↦ ?_⟩
  · exact hrow (history_rows hrsp hx)
  · exact hrow (sync_rows hrsp hx)
  · exact hrow (by_id_rows hrsp hx)
  · -- a document that is found is that of the message, and its text matches the keyword
    obtain ⟨hkey, d, hd, hmatch, rfl⟩ := search_docs hrsp hx
    obtain ⟨ev, ⟨m', e', hc', -, hne, rfl⟩, rfl⟩ := h.docs d hd
    obtain ⟨rfl, rfl⟩ := h.eq_of_id hc hc' ((Int64.toInt64_toUInt64 _).symm.trans hid)
    rcases hsearch with hempty | hnone
    · exact absurd hempty hne
    · exact absurd hmatch (Bool.eq_false_iff.1 (hnone _ hkey))
  · exact hrow (pinned_rows hrsp hx)

end Hidden

/-! ### What is shown of the other messages -/

/-- The owner of a conversation. -/
def owner_of (cid : String) : ConversationMember :=
  { conversation_id := cid, user_id := "owner", role := .OWNER }

/-- The members of a conversation that nobody but its owner is in. -/
def members_of (cid : String) : Table ConversationMember.key :=
  ⟨[owner_of cid], List.pairwise_singleton _ _⟩

/-- The message, as the owner recalls it. -/
def recall_of (m : InternalMessage) : RecallMessageReq :=
  ⟨m.message.conversation_id, m.message.message_id⟩

section Shown

variable {s : IndexedState} {r : MessageRow} {req : RecallMessageReq} {i : ℕ}

/-- An operation acts on the tables alone. -/
theorem exec_of_db {o : MsgOp} {c : MsgChoice} {res : o.Res} {db : MsgState}
    (h : s.db.exec i o c = some (res, db)) :
    indexService.exec i o c s = some (res, { s with db }) := by
  show (s.db.exec i o c).map _ = _
  rw [h]
  rfl

/-- The tables when a recall is about to respond. -/
def MsgState.afterRecall (s : MsgState) (i : ℕ) (r : MessageRow) (n : PushPayload) : MsgState :=
  { s with
    messages := s.messages.write r.recalled
    tried := i :: s.tried
    revoked := (i, r.message_id) :: s.revoked
    published := (i, n) :: s.published }

/-- The owner recalls a message that is stored and NORMAL. -/
theorem exec_recall (hfind : s.db.messages.find req.mid = some r) (hst : r.status = .NORMAL)
    (hcid : r.session_id = req.conversation_id) :
    (RecallMessage "owner" req).Exec (indexService.exec i) s ()
      { s with db := { s.db.afterRecall i r (.recalled req.conversation_id req.message_id) with
        answers := (i, .ok ()) :: s.db.answers } } := by
  have hkey : r.message_id = req.mid := Table.key_of_find hfind
  have hrow : row_refusal req.conversation_id r = none := by
    rw [row_refusal, if_neg (by simp [hcid]), if_neg (by simp [hst]), if_neg (by simp [hst])]
  have hread : s.db.exec i (.selectById req.mid) {} = some (some r, s.db) := by
    rw [← hfind]
    rfl
  have hnormal : s.db.exec i (.selectNormal req.mid) {} =
      some (some r, { s.db with tried := i :: s.db.tried }) := by
    simp only [MsgState.exec, hfind, Option.filter, hst, decide_true, Bool.false_eq_true, if_false,
      if_true]
  have hwrite : ({ s.db with tried := i :: s.db.tried } : MsgState).exec i
      (.updateRecalled r.recalled) {} = some (true, { s.db with
        tried := i :: s.db.tried, messages := s.db.messages.write r.recalled,
        revoked := (i, r.message_id) :: s.db.revoked }) := by
    have hrecalled : r.recalled.message_id = req.mid := hkey
    simp only [MsgState.exec, hrecalled, hfind, hkey]
    rfl
  have hbody : (recall_message "owner" req).Exec (indexService.exec i) s (.ok ())
      { s with db := s.db.afterRecall i r (.recalled req.conversation_id req.message_id) } := by
    rw [recall_message, op_bind]
    refine .call (exec_of_db hread) ?_
    dsimp only
    rw [hrow]
    refine .call (c := { self := some (owner_of req.conversation_id) }) (exec_of_db rfl) ?_
    refine .call (c := {}) (exec_of_db rfl) ?_
    refine .call (exec_of_db hnormal) (.call (exec_of_db hwrite) ?_)
    exact .call (c := {}) (exec_of_db rfl) (.ret _ _)
  exact hbody.bind (.call (c := {}) (exec_of_db rfl) (.ret _ _))

variable {m : InternalMessage} {e : Extracted}

/-- A first message is stored. -/
theorem reach_stored (he : accepted_content m.message.content = some e) :
    ∃ s, indexService.Reach .any ⟨[], {}⟩ ⟨[], s⟩ ∧
      s.db.messages.find m.message.message_id.toUInt64 = some (row_of m.message e) ∧
      m ∈ s.stored ∧ s.db.calls = [] ∧ s.docs = [] ∧
      s.events = IndexedState.published m e := by
  have hfree : (Table.empty : Table MessageRow.message_id).find (row_of m.message e).message_id =
      none := rfl
  obtain ⟨messages, hins⟩ := Option.isSome_iff_exists.1 (Table.insert_isSome.2 hfree)
  let s₁ : IndexedState :=
    { db := { messages }, events := IndexedState.published m e, stored := [m] }
  have hconsume : IndexedState.consume {} m = some s₁ := by
    rw [IndexedState.consume, he]
    dsimp only
    rw [if_neg (by rintro ⟨r, hr, -⟩; exact List.not_mem_nil hr), hins]
    rfl
  refine ⟨s₁, .single (.event (e := .consume m) trivial ?_), ?_, List.mem_cons_self, rfl, rfl, rfl⟩
  · show (IndexedState.consume {} m).map _ = _
    rw [hconsume]
    rfl
  · exact (Table.find_insert hins).trans (if_pos rfl)

/-- The owner recalls a message, after it has been stored and perhaps indexed. -/
theorem reach_recalled (hr : indexService.Reach .any ⟨[], {}⟩ ⟨[], s⟩)
    (hfind : s.db.messages.find m.message.message_id.toUInt64 = some (row_of m.message e))
    (hstored : m ∈ s.stored) (hcalls : s.db.calls = []) (hevents : s.events = []) :
    ∃ p, indexService.Reach .any ⟨[], {}⟩ p ∧ m ∈ p.shared.stored ∧
      p.shared.Recalled m.message.message_id ∧ p.shared.Processed m.message.message_id ∧
      p.shared.docs = s.docs ∧ (row_of m.message e).recalled ∈ p.shared.db.messages.rows := by
  let s₁ : IndexedState :=
    { s with db := { s.db with calls := [.recalls "owner" (recall_of m)] } }
  have harrive : indexService.Reach .any ⟨[], {}⟩ ⟨[RecallMessage "owner" (recall_of m)], s₁⟩ := by
    refine hr.tail (.event (e := .arrive (.recalls "owner" (recall_of m))) trivial ?_)
    show some (_ : IndexPool) = _
    rw [hcalls]
    rfl
  have hexec : (RecallMessage "owner" (recall_of m)).Exec (indexService.exec 0) s₁ () _ :=
    exec_recall hfind rfl rfl
  refine ⟨_, harrive.trans (Machine.reach_of_exec rfl hexec), hstored,
    ⟨0, "owner", recall_of m, rfl, rfl, List.mem_cons_self⟩, fun ev hev ↦ ?_, rfl, ?_⟩
  · have hev' : ev ∈ s.events := hev
    rw [hevents] at hev'
    exact absurd hev' List.not_mem_nil
  · exact Table.mem_of_find (Table.find_write_self hfind)

/-- The owner is a member. -/
theorem owner_found (cid : String) :
    (s.tables (members_of cid)).select_self {} cid "owner" = some (owner_of cid) :=
  (Table.find_eq_some _).2 ⟨List.mem_cons_self, rfl⟩

/-- What a message that is no text leaves in its row when it is recalled. -/
theorem shownBy_recalled (htype : m.message.content.type ≠ TEXT)
    (he : accepted_content m.message.content = some e) :
    e.ShownBy (convert_db_message_to_proto_ (row_of m.message e).recalled) := by
  have hfile : e.file_id ≠ "" := by
    intro hempty
    have hext := accepted_content_eq he
    rw [accepted_content, hext] at he
    dsimp only at he
    rw [if_pos ⟨htype, hempty⟩] at he
    cases he
  have hstorable := ((accepted_content_isSome m.message.content).1 (by rw [he]; rfl)).1
  have hne : FILE.num ≠ IMAGE.num ∧ AUDIO.num ≠ IMAGE.num ∧ AUDIO.num ≠ FILE.num := by decide
  refine ⟨e.file_id, by simp, hfile, ?_⟩
  simp only [storableTypes, List.mem_cons, List.not_mem_nil, or_false] at hstorable
  rcases hstorable with ht | ht | ht | ht
  · exact absurd ht htype
  · simp [Message.texts, MessageContent.image, convert_db_message_to_proto_, row_of,
      MessageRow.recalled, ht]
  · simp [Message.texts, MessageContent.file, convert_db_message_to_proto_, row_of,
      MessageRow.recalled, ht, hne]
  · simp [Message.texts, MessageContent.audio, convert_db_message_to_proto_, row_of,
      MessageRow.recalled, ht, hne]

/-- A message that is no text is given away by its row. -/
theorem not_recallHides_of_ne_text {es : EsMatch} (htype : m.message.content.type ≠ TEXT)
    (he : accepted_content m.message.content = some e) : ¬RecallHides es m e := by
  intro h
  obtain ⟨s, hr, hfind, hstored, hcalls, -, hevents⟩ := reach_stored he
  rw [IndexedState.published, if_neg fun h ↦ htype h.1] at hevents
  obtain ⟨p, hp, hstored, hrecalled, hdone, -, hrow⟩ :=
    reach_recalled hr hfind hstored hcalls hevents
  have hhides := h p hp hstored hrecalled hdone
  -- the owner asks for the message by its id
  have hselect : (row_of m.message e).recalled ∈
      select_by_ids p.shared.db.messages.rows [m.message.message_id.toUInt64] :=
    (List.mem_insertionSort _).2 (List.mem_filter.2 ⟨hrow, by simp [row_of, MessageRow.recalled]⟩)
  have hshows : (p.shared.tables (members_of m.message.conversation_id)).shows {} "owner"
      (row_of m.message e).recalled = true := by
    rw [ReadTables.shows]
    exact congrArg (Option.any _) (owner_found m.message.conversation_id)
  refine hhides.by_id (members_of m.message.conversation_id) {} "owner"
    ⟨[m.message.message_id]⟩ _ rfl _ ?_ ?_ (shownBy_recalled htype he)
  · refine List.mem_map_of_mem (List.mem_filter.2 ⟨?_, hshows⟩)
    rw [arriving_none]
    exact hselect
  · exact Int64.toInt64_toUInt64 _

/-- A text is given away by its document. -/
theorem not_recallHides_of_match {es : EsMatch} (htype : m.message.content.type = TEXT)
    (he : accepted_content m.message.content = some e) (htext : e.content_text ≠ "") {key : String}
    (hkey : key ≠ "") (hmatch : es key e.content_text = true) : ¬RecallHides es m e := by
  intro h
  obtain ⟨s, hr, hfind, hstored, hcalls, hdocs, hevents⟩ := reach_stored he
  rw [IndexedState.published, if_pos ⟨htype, htext⟩] at hevents
  have hindex : indexService.Reach .any ⟨[], {}⟩
      ⟨[], s.handle (es_event m.message e.content_text) 0 true false⟩ := by
    refine hr.tail (.event (e := .index 0 true false) trivial ?_)
    show Option.map _ s.events[0]? = _
    rw [hevents]
    rfl
  obtain ⟨p, hp, hstored, hrecalled, hdone, hdocs', -⟩ :=
    reach_recalled hindex hfind hstored hcalls (by simp [IndexedState.handle, hevents])
  have hhides := h p hp hstored hrecalled hdone
  -- the owner searches with the keyword
  let d := (es_event m.message e.content_text).doc
  have hdocs : p.shared.docs = [d] := by
    rw [hdocs', IndexedState.handle, hdocs]
    exact if_pos ⟨rfl, htype⟩
  have hsearch : EsMessage.search es p.shared.docs key m.message.conversation_id 1 = [d.row] := by
    have hd : decide (d.chat_session_id = m.message.conversation_id ∧ es key d.content = true ∧
        d.status = 0) = true := decide_eq_true ⟨rfl, hmatch, rfl⟩
    rw [EsMessage.search, hdocs, List.filter_singleton, hd]
    rfl
  have hrsp : (p.shared.tables (members_of m.message.conversation_id)).SearchMessages {} es
      p.shared.docs "owner" ⟨m.message.conversation_id, key, 1⟩ =
        .ok [convert_db_message_to_proto_ d.row] := by
    have hmember : (p.shared.tables (members_of m.message.conversation_id)).require_member_ {}
        m.message.conversation_id "owner" = .ok () := by
      rw [ReadTables.require_member_, owner_found]
      rfl
    rw [ReadTables.SearchMessages]
    simp only [hkey, if_false, hmember]
    show Except.ok (List.map _ (EsMessage.search es p.shared.docs key _ 1)) = _
    rw [hsearch]
    rfl
  refine hhides.search (members_of m.message.conversation_id) {} "owner" _ _ hrsp _
    List.mem_cons_self (Int64.toInt64_toUInt64 _) ⟨e.content_text, List.mem_cons_self, htext, ?_⟩
  have hnum : TEXT.num ≠ IMAGE.num ∧ TEXT.num ≠ FILE.num ∧ TEXT.num ≠ AUDIO.num := by decide
  simp [Message.texts, MessageContent.text, convert_db_message_to_proto_, EsMessage.row, d, hnum,
    ESIndexEvent.doc, es_event]

end Shown

/-- **A recall hides the content** of a message if and only if the message is a text that is empty
or that no keyword matches. -/
theorem recall_hides_iff (es : EsMatch) (m : InternalMessage) (e : Extracted)
    (he : accepted_content m.message.content = some e) :
    RecallHides es m e ↔ m.message.content.type = TEXT ∧
      (e.content_text = "" ∨ ∀ key, key ≠ "" → es key e.content_text = false) := by
  constructor
  · intro h
    have htype : m.message.content.type = TEXT := by
      by_contra htype
      exact not_recallHides_of_ne_text htype he h
    refine ⟨htype, ?_⟩
    by_contra hsearch
    obtain ⟨htext, hmatch⟩ := not_or.1 hsearch
    refine hmatch fun key hkey ↦ Bool.eq_false_iff.2 fun hkeyed ↦ ?_
    exact not_recallHides_of_match htype he htext hkey hkeyed h
  · rintro ⟨htype, hsearch⟩ p hr hstored hrecalled -
    obtain ⟨ts, hinv⟩ := storeInv_run hr
    exact hinv.hides ⟨hstored, he⟩ htype hsearch hrecalled

/-- A picture that alice sends to the team. -/
def alicePhoto : InternalMessage where
  message := { message_id := 7, conversation_id := "team", sender_id := "alice", seq_id := 1
               content := { type := IMAGE, body := some (.image { file_id := "f1" }) } }

/-- A text that alice sends to the team. -/
def aliceNote : InternalMessage where
  message := { message_id := 8, conversation_id := "team", sender_id := "alice", seq_id := 2
               content := { type := TEXT, body := some (.text { text := "hi" }) } }

/-- Where no keyword matches it, the text is hidden. -/
theorem unmatched_note_hidden :
    RecallHides (fun _ _ ↦ false) aliceNote { content_text := "hi" } :=
  (recall_hides_iff (fun _ _ ↦ false) aliceNote { content_text := "hi" } (by decide)).2
    ⟨rfl, .inr fun _ _ ↦ rfl⟩

/-- The file of the picture is shown after the recall, and so is the text where it matches
itself. -/
theorem recalled_content_shown :
    (∀ es, ¬RecallHides es alicePhoto { file_id := "f1" }) ∧
      ¬RecallHides (fun key text ↦ decide (key = text)) aliceNote { content_text := "hi" } :=
  ⟨fun _ ↦ not_recallHides_of_ne_text (by decide) (by decide),
    not_recallHides_of_match rfl (by decide) (by decide) (show "hi" ≠ "" by decide) (by decide)⟩

end ChatNow
