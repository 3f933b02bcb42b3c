import ChatNow.Conversation.ViewMachine
import ChatNow.Pipeline.Flow
import Mathlib.Data.List.MinMax

/-!
# The last message of a conversation

What `fetch_last_message_` shows as the last message is the first one after the caller's cursor: it
asks `SyncMessages` for one message, in ascending order. The answer stays in the cache for a day,
under a key with the cursor, whatever is stored, recalled or deleted in the meantime.

A preview goes back to one read of the message table, by the call itself or by the one that has
filled the cache (`Served.origin`). It is right if and only if the row that was found then is the
last one now, with the same status (`last_message_iff`).
-/

namespace ChatNow

open Prog

/-! ### What happens to the message table -/

/-- The row of the same message, with another status or text. -/
def MessageRow.SameAs (r r' : MessageRow) : Prop :=
  { r' with status := r.status, content := r.content } = r

/-- Every row is still there, but for its status and text. -/
def Later (rows rows' : List MessageRow) : Prop := ∀ r ∈ rows, ∃ r' ∈ rows', r.SameAs r'

/-- The ids are distinct. -/
def DistinctIds (rows : List MessageRow) : Prop := (rows.map (·.message_id)).Nodup

section Rows

variable {r r' r'' : MessageRow} {rows rows' rows'' : List MessageRow}

theorem MessageRow.SameAs.message_id (h : r.SameAs r') : r'.message_id = r.message_id := by
  unfold MessageRow.SameAs at h
  have hid := congrArg MessageRow.message_id h
  exact hid

theorem MessageRow.SameAs.trans (h : r.SameAs r') (h' : r'.SameAs r'') : r.SameAs r'' := by
  unfold MessageRow.SameAs at h h' ⊢
  rw [← h, ← h']

/-- The preview is told by the row but for its text. -/
theorem MessageRow.SameAs.preview (h : r.SameAs r') (hstatus : r'.status = r.status) :
    r'.preview = r.preview := by
  unfold MessageRow.SameAs at h
  rw [← h, ← hstatus]
  simp only [MessageRow.preview, preview_of, convert_db_message_to_proto_]
  congr 1
  split
  · rfl
  · split
    · rfl
    · split <;> rfl

/-- The preview tells the message and its status. -/
theorem eq_of_preview (h : r'.preview = r.preview) :
    r'.message_id = r.message_id ∧ r'.status = r.status := by
  have hid : r'.message_id.toInt64 = r.message_id.toInt64 := congrArg MessagePreview.message_id h
  have hnum : r'.status.num = r.status.num := congrArg (·.status.num) h
  constructor
  · rw [← r'.message_id.toUInt64_toInt64, hid, r.message_id.toUInt64_toInt64]
  · revert hnum
    cases r'.status <;> cases r.status <;> decide

theorem Later.refl (rows : List MessageRow) : Later rows rows := fun r hr ↦ ⟨r, hr, rfl⟩

theorem Later.trans (h : Later rows rows') (h' : Later rows' rows'') : Later rows rows'' := by
  intro r hr
  obtain ⟨r', hr', hsame⟩ := h r hr
  obtain ⟨r'', hr'', hsame'⟩ := h' r' hr'
  exact ⟨r'', hr'', hsame.trans hsame'⟩

theorem Later.append (row : MessageRow) : Later rows (rows ++ [row]) :=
  fun r hr ↦ ⟨r, List.mem_append_left _ hr, rfl⟩

theorem DistinctIds.eq (h : DistinctIds rows) (hr : r ∈ rows) (hr' : r' ∈ rows)
    (hid : r.message_id = r'.message_id) : r = r' :=
  List.inj_on_of_nodup_map h hr hr' hid

theorem DistinctIds.append {collate : String → String} (h : DistinctIds rows) {row : MessageRow}
    (hfree : ¬conflicts collate rows row) : DistinctIds (rows ++ [row]) := by
  rw [DistinctIds, List.map_append, List.nodup_append]
  refine ⟨h, List.nodup_singleton _, fun id hid id' hid' heq ↦ ?_⟩
  obtain ⟨r, hr, rfl⟩ := List.mem_map.1 hid
  obtain rfl := List.mem_singleton.1 hid'
  exact hfree ⟨r, hr, .inl heq⟩

/-- A recall or a deletion. -/
theorem later_map {f : MessageRow → MessageRow} (hf : ∀ r : MessageRow, r.SameAs (f r)) :
    Later rows (rows.map f) :=
  fun r hr ↦ ⟨f r, List.mem_map_of_mem hr, hf r⟩

theorem DistinctIds.map (h : DistinctIds rows) {f : MessageRow → MessageRow}
    (hf : ∀ r : MessageRow, r.SameAs (f r)) : DistinctIds (rows.map f) := by
  have hid : (rows.map f).map (·.message_id) = rows.map (·.message_id) := by
    rw [List.map_map]
    exact List.map_congr_left fun r _ ↦ (hf r).message_id
  rw [DistinctIds, hid]
  exact h

theorem sameAs_recall (mid : UInt64) (r : MessageRow) : r.SameAs (recall_row mid r) := by
  unfold recall_row
  split <;> rfl

theorem sameAs_delete (mid : UInt64) (r : MessageRow) : r.SameAs (mark_deleted mid r) := by
  unfold mark_deleted
  split <;> rfl

end Rows

/-- A call to the message service leaves the rows or stores one. -/
theorem Pipe.rows_of_exec {collate : String → String} {i : ℕ} {o : PipeOp} {r : o.Res} {c : Choice}
    {s s' : Pipe} (hx : Pipe.exec collate i o c s = some (r, s')) :
    s'.rows = s.rows ∨ ∃ row timeline, o = .insertMessage row timeline ∧
      ¬conflicts collate s.rows row ∧ s'.rows = s.rows ++ [row] := by
  cases o with
  | insertMessage row timeline =>
    simp only [Pipe.exec] at hx
    split at hx
    · obtain ⟨-, rfl⟩ := Prod.mk.inj (Option.some.inj hx)
      exact .inl rfl
    · next hfree =>
      obtain ⟨-, rfl⟩ := Prod.mk.inj (Option.some.inj hx)
      split
      · exact .inr ⟨row, timeline, rfl, hfree, rfl⟩
      · exact .inl rfl
  | settle action =>
    obtain ⟨-, rfl⟩ := Prod.mk.inj (Option.some.inj hx)
    exact .inl (settle_rows s i action)
  | redisSetNx | nextSessionSeq =>
    simp only [Pipe.exec] at hx
    split at hx <;> obtain ⟨-, rfl⟩ := Prod.mk.inj (Option.some.inj hx)
    · exact .inl rfl
    · left
      split <;> rfl
  | redisDel | redisSet | nextUserSeqBatch =>
    obtain ⟨-, rfl⟩ := Prod.mk.inj (Option.some.inj hx)
    left
    split <;> rfl
  | nextId =>
    simp only [Pipe.exec] at hx
    split at hx
    · obtain ⟨-, rfl⟩ := Prod.mk.inj (Option.some.inj hx)
      exact .inl rfl
    · split at hx
      · cases hx
      · obtain ⟨-, rfl⟩ := Prod.mk.inj (Option.some.inj hx)
        exact .inl rfl
  | awaitConfirm =>
    simp only [Pipe.exec] at hx
    split at hx
    · cases hx
    · obtain ⟨-, rfl⟩ := Prod.mk.inj (Option.some.inj hx)
      exact .inl rfl
  | redisGet | selectByClientMsg | resolveUserInfo | publishConfirm | selectById | pushPublish
  | esPublish | selectMaxSeq =>
    simp only [Pipe.exec] at hx
    split at hx <;>
    · obtain ⟨-, rfl⟩ := Prod.mk.inj (Option.some.inj hx)
      exact .inl rfl
  | allowUser | allowSession | resolveMembers | nowMs | reply | pushEnqueue | esEnqueue
  | requireMember | selectAfter | syncReply =>
    obtain ⟨-, rfl⟩ := Prod.mk.inj (Option.some.inj hx)
    exact .inl rfl

/-! ### The last message -/

/-- The row of the conversation with the greatest number that is not deleted. -/
def last_live (rows : List MessageRow) (cid : String) : Option MessageRow :=
  (rows.filter fun r ↦ r.session_id = cid ∧ r.status ≠ .DELETED).argmax (·.seq_id.toNat)

theorem last_live_eq_some {rows : List MessageRow} {cid : String} {r : MessageRow}
    (h : last_live rows cid = some r) :
    r ∈ rows ∧ r.session_id = cid ∧ r.status ≠ .DELETED ∧ ∀ r' ∈ rows, r'.session_id = cid →
      r'.status ≠ .DELETED → r'.seq_id ≤ r.seq_id := by
  obtain ⟨hmem, hlive⟩ := List.mem_filter.1 (List.argmax_mem h)
  obtain ⟨hcid, hstatus⟩ := of_decide_eq_true hlive
  refine ⟨hmem, hcid, hstatus, fun r' hr' hcid' hstatus' ↦ ?_⟩
  have hr'' : r' ∈ rows.filter fun r ↦ r.session_id = cid ∧ r.status ≠ .DELETED :=
    List.mem_filter.2 ⟨hr', decide_eq_true ⟨hcid', hstatus'⟩⟩
  exact List.le_of_mem_argmax hr'' h

namespace Fetched

variable (f : Fetched)

/-- The preview is that of the last message, with the status that it has. -/
def Latest : Prop := (last_live f.now f.cid).map (·.preview) = some f.preview

instance : Decidable f.Latest := inferInstanceAs (Decidable (_ = _))

/-- What the read of the table found after the cursor is the last message now, with the status that
was read. -/
def Undisturbed : Prop :=
  ∃ first last, f.origin.first = some first ∧ last_live f.now f.cid = some last ∧
    last.message_id = first.message_id ∧ last.status = first.status

end Fetched

/-! ### Where previews come from -/

/-- The read has found the row first, and the table has gone on since. -/
structure Served.Gives (x : Served) (r : MessageRow) : Prop where
  first : x.origin.first = some r
  later : Later x.origin.rows x.now
  ids : DistinctIds x.now

/-- A row that is found is one of the table. -/
theorem TableRead.mem_of_first {x : TableRead} {r : MessageRow} (h : x.first = some r) :
    r ∈ x.rows := by
  have hmem := List.mem_of_mem_take (List.mem_of_mem_head? h)
  exact (List.mem_filter.1 ((List.mem_insertionSort _).1 hmem)).1

/-- What the preview of a row is worth later. -/
theorem Served.Gives.latest_iff {x : Served} {r : MessageRow} (h : x.Gives r) (cid : String) :
    (Fetched.mk x cid r.preview).Latest ↔ (Fetched.mk x cid r.preview).Undisturbed := by
  constructor
  · intro hlatest
    obtain ⟨last, hlast, hpreview⟩ := Option.map_eq_some_iff.1 hlatest
    obtain ⟨hid, hstatus⟩ := eq_of_preview hpreview
    exact ⟨r, last, h.first, hlast, hid, hstatus⟩
  · rintro ⟨first, last, hfirst, hlast, hid, hstatus⟩
    obtain rfl := Option.some.inj (h.first.symm.trans hfirst)
    obtain ⟨r', hr', hsame⟩ := h.later r (TableRead.mem_of_first h.first)
    obtain rfl := h.ids.eq (last_live_eq_some hlast).1 hr' (hid.trans hsame.message_id.symm)
    exact Option.map_eq_some_iff.2 ⟨last, hlast, hsame.preview hstatus⟩

variable {lib : JsonLib}

/-- What a thread holds goes back to what it has been given last. -/
def FetchPhase.From (x : Served) : FetchPhase lib.Text → Prop
  | idle => True
  | hit preview_json => ∃ r, x.Gives r ∧ preview_json = serialize_preview_json_ lib r.preview
  | page rows => ∀ r, rows.head? = some r → x.Gives r

/-- What a thread shows is the preview of a row that it has been given. -/
theorem FetchPhase.From.shows {x : Served} {ph : FetchPhase lib.Text} {preview : MessagePreview}
    (h : ph.From x) (hshows : ph.Shows preview) : ∃ r, x.Gives r ∧ preview = r.preview := by
  cases ph with
  | idle => exact hshows.elim
  | hit preview_json =>
    obtain ⟨r, hr, rfl⟩ := h
    have hparse := (parse_serialize lib r.preview).symm.trans hshows
    exact ⟨r, hr, (Option.some.inj (Reply.ok.inj hparse)).symm⟩
  | page rows =>
    obtain ⟨r, hr, rfl⟩ := hshows
    exact ⟨r, h r hr, rfl⟩

/-- The entry is the preview of what its read has found, and the table has gone on since. -/
structure PreviewEntry.From (e : PreviewEntry lib.Text) (rows : List MessageRow) : Prop where
  text : ∃ r, e.origin.first = some r ∧
    e.preview_json = serialize_preview_json_ lib r.preview
  later : Later e.origin.rows rows

/-- Every preview, in the cache, with a thread or in a response, goes back to a read. -/
structure FetchInv (ts : List (ViewCall lib.Text)) (s : ViewState lib.Text) : Prop where
  ids : DistinctIds s.pipe.rows
  cached : ∀ key e, s.cache key = some e → e.From s.pipe.rows
  held : ∀ (i : ℕ) ph, ts[i]? = some (.read ph) → ph.From (s.served i)
  before : ∀ i, Later (s.served i).now s.pipe.rows
  fetched : ∀ f ∈ s.fetched, ∃ r, f.toServed.Gives r ∧ f.preview = r.preview

namespace FetchInv

variable {ts ts' : List (ViewCall lib.Text)} {s s' : ViewState lib.Text} {i : ℕ}
  {t : ViewCall lib.Text} {ph : FetchPhase lib.Text} {x : Served} {ch : ViewChoice}
  {collate : String → String}

/-- The table goes on; nobody is given anything. -/
theorem move (h : FetchInv ts s) (hids : DistinctIds s'.pipe.rows)
    (hlater : Later s.pipe.rows s'.pipe.rows)
    (hcache : ∀ key e, s'.cache key = some e → s.cache key = some e)
    (hserved : s'.served = s.served) (hfetched : s'.fetched = s.fetched)
    (hts : ∀ (j : ℕ) ph, ts'[j]? = some (.read ph) → ts[j]? = some (.read ph)) :
    FetchInv ts' s' where
  ids := hids
  cached key e he := by
    obtain ⟨htext, hold⟩ := h.cached key e (hcache key e he)
    exact ⟨htext, hold.trans hlater⟩
  held j ph hj := hserved ▸ h.held j ph (hts j ph hj)
  before j := hserved ▸ (h.before j).trans hlater
  fetched f hf := h.fetched f (hfetched ▸ hf)

/-- The tables and the cache stay, and nobody is given anything. -/
theorem stay (h : FetchInv ts s) (hrows : s'.pipe.rows = s.pipe.rows) (hcache : s'.cache = s.cache)
    (hserved : s'.served = s.served) (hfetched : s'.fetched = s.fetched)
    (hts : ∀ (j : ℕ) ph, ts'[j]? = some (.read ph) → ts[j]? = some (.read ph)) :
    FetchInv ts' s' := by
  refine h.move ?_ ?_ (fun key e he ↦ hcache ▸ he) hserved hfetched hts <;> rw [hrows]
  · exact h.ids
  · exact .refl _

/-- A thread is given a text or rows. -/
theorem serve (h : FetchInv ts s) (hph : ph.From x) (hnow : x.now = s.pipe.rows)
    (hrows : s'.pipe.rows = s.pipe.rows) (hcache : s'.cache = s.cache)
    (hserved : s'.served = Function.update s.served i x)
    (hfetched : s'.fetched = s.fetched) : FetchInv (ts.set i (.read ph)) s' where
  ids := hrows ▸ h.ids
  cached key e he := hrows ▸ h.cached key e (hcache ▸ he)
  held j ph' hj := by
    rw [hserved]
    rcases Pool.getElem?_set_cases hj with ⟨rfl, heq⟩ | ⟨hne, hold⟩
    · obtain rfl := ViewCall.read.inj heq
      rw [Function.update_self]
      exact hph
    · rw [Function.update_of_ne hne]
      exact h.held j ph' hold
  before j := by
    rw [hserved, hrows]
    rcases eq_or_ne j i with rfl | hne
    · rw [Function.update_self, hnow]
      exact .refl _
    · rw [Function.update_of_ne hne]
      exact h.before j
  fetched f hf := h.fetched f (hfetched ▸ hf)

/-- A thread that has not moved on. -/
theorem held_of_set (hi : ts[i]? = some t) {u : ViewCall lib.Text}
    (ht : ∀ ph, u = .read ph → t = .read ph) (j : ℕ) (ph : FetchPhase lib.Text)
    (hj : (ts.set i u)[j]? = some (.read ph)) : ts[j]? = some (.read ph) := by
  rcases Pool.getElem?_set_cases hj with ⟨rfl, heq⟩ | ⟨-, hold⟩
  · rw [hi, ht ph heq.symm]
  · exact hold

/-- Rows are read from the table. -/
theorem read (h : FetchInv ts s) {cid : String} {after_seq : UInt64} {limit : ℕ}
    {rows : List MessageRow} (hpage : rows <+: select_after s.pipe.rows cid after_seq limit) :
    (.page rows : FetchPhase lib.Text).From ⟨s.pipe.rows, ⟨s.pipe.rows, cid, after_seq⟩⟩ := by
  intro r hr
  refine ⟨?_, .refl _, h.ids⟩
  obtain ⟨rest, rfl⟩ := List.head?_eq_some_iff.1 hr
  obtain ⟨tail, htail⟩ := hpage
  rw [TableRead.first, select_after, List.head?_take, if_neg (Nat.one_ne_zero)]
  rw [select_after] at htail
  have hhead := congrArg List.head? htail
  rw [List.head?_take] at hhead
  split at hhead
  · cases hhead
  · exact hhead.symm

/-- A call to the message service reads the table for a page, or gives its thread nothing. -/
theorem reads_or_serves (s : ViewState lib.Text) (i : ℕ) (o : PipeOp) :
    (∃ cid after_seq limit, o = .selectAfter cid after_seq limit) ∨ s.serves i o = s.served ∧
      ∀ ph r, ViewCall.next (.read ph : ViewCall lib.Text) (.message o) r = .read ph := by
  cases o with
  | selectAfter cid after_seq limit => exact .inl ⟨cid, after_seq, limit, rfl⟩
  | _ => exact .inr ⟨rfl, fun _ _ ↦ rfl⟩

/-- A call to the message service. -/
theorem message (h : FetchInv ts s) {o : PipeOp} {r : o.Res} {pipe : Pipe}
    (hi : ts[i]? = some (.read ph))
    (hx : Pipe.exec collate i o ch.message s.pipe = some (r, pipe)) :
    FetchInv (ts.set i (ViewCall.next (.read ph) (.message o) r))
      { s with pipe := pipe, served := s.serves i o } := by
  rcases reads_or_serves s i o with ⟨cid, after_seq, limit, rfl⟩ | ⟨hserves, hnext⟩
  · obtain ⟨rfl, rfl⟩ := Prod.mk.inj (Option.some.inj hx)
    exact h.serve (h.read (List.take_prefix _ _)) rfl rfl rfl rfl rfl
  · rw [hnext]
    have hheld := held_of_set hi (u := .read ph) fun ph' heq ↦ heq
    rcases Pipe.rows_of_exec hx with hrows | ⟨row, timeline, -, hfree, hrows⟩
    · exact h.stay hrows rfl hserves rfl hheld
    · refine h.move ?_ ?_ (fun _ _ he ↦ he) hserves rfl hheld
      · show DistinctIds pipe.rows
        rw [hrows]
        exact h.ids.append hfree
      · show Later s.pipe.rows pipe.rows
        rw [hrows]
        exact .append row

/-- A call of a thread. -/
theorem call (h : FetchInv ts s) {o : ViewOp lib.Text} {r : o.Res} (hi : ts[i]? = some t)
    (ha : t.allowed o) (hx : s.exec collate i o ch = some (r, s')) :
    FetchInv (ts.set i (t.next o r)) s' := by
  cases t with
  | conv t =>
    cases o with
    | conv o =>
      obtain ⟨x, -, heq⟩ := Option.map_eq_some_iff.1 hx
      obtain ⟨-, rfl⟩ := Prod.mk.inj heq
      exact h.stay rfl rfl rfl rfl (held_of_set hi fun _ hread ↦ nomatch hread)
    | _ => exact ha.elim
  | read ph =>
    have hheld := held_of_set hi (u := .read ph) fun ph' heq ↦ heq
    cases o with
    | conv o =>
      obtain ⟨x, -, heq⟩ := Option.map_eq_some_iff.1 hx
      obtain ⟨-, rfl⟩ := Prod.mk.inj heq
      exact h.stay rfl rfl rfl rfl hheld
    | message o =>
      obtain ⟨x, hpipe, heq⟩ := Option.map_eq_some_iff.1 hx
      obtain ⟨rfl, rfl⟩ := Prod.mk.inj heq
      exact h.message hi hpipe
    | lastMsgGet key =>
      simp only [ViewState.exec] at hx
      split at hx
      · next e he =>
        split at hx
        · obtain ⟨rfl, rfl⟩ := Prod.mk.inj (Option.some.inj hx)
          exact h.stay rfl rfl rfl rfl hheld
        · -- the text is that of the row that the read of the entry has found
          obtain ⟨rfl, rfl⟩ := Prod.mk.inj (Option.some.inj hx)
          obtain ⟨⟨row, hfirst, htext⟩, hlater⟩ := h.cached key e he
          exact h.serve ⟨row, ⟨hfirst, hlater, h.ids⟩, htext⟩ rfl rfl rfl rfl rfl
      · obtain ⟨rfl, rfl⟩ := Prod.mk.inj (Option.some.inj hx)
        exact h.stay rfl rfl rfl rfl hheld
    | lastMsgSet key preview_json =>
      simp only [ViewState.exec] at hx
      split at hx
      · obtain ⟨-, rfl⟩ := Prod.mk.inj (Option.some.inj hx)
        exact h.stay rfl rfl rfl rfl hheld
      · obtain ⟨-, rfl⟩ := Prod.mk.inj (Option.some.inj hx)
        obtain ⟨rows, row, rfl, hrow, rfl⟩ := ha
        have hgives := h.held i _ hi row hrow
        refine ⟨h.ids, fun key' e he ↦ ?_, fun j ph' hj ↦ h.held j ph' (hheld j ph' hj), h.before,
          h.fetched⟩
        rcases eq_or_ne key' key with rfl | hne
        · obtain rfl := Option.some.inj ((Function.update_self key' _ s.cache).symm.trans he)
          exact ⟨⟨row, hgives.first, rfl⟩, hgives.later.trans (h.before i)⟩
        · exact h.cached key' e ((Function.update_of_ne hne _ _).symm.trans he)
    | copyPreview cid preview =>
      obtain ⟨-, rfl⟩ := Prod.mk.inj (Option.some.inj hx)
      obtain ⟨row, hgives, rfl⟩ := (h.held i ph hi).shows ha
      refine ⟨h.ids, h.cached, fun j ph' hj ↦ h.held j ph' (hheld j ph' hj), h.before,
        fun f hf ↦ ?_⟩
      rcases List.mem_cons.1 hf with rfl | hf
      · exact ⟨row, hgives, rfl⟩
      · exact h.fetched f hf
    | listOrderedByUser | getMultiUserInfo | callMessage | reply =>
      obtain ⟨-, rfl⟩ := Prod.mk.inj (Option.some.inj hx)
      exact h.stay rfl rfl rfl rfl hheld

end FetchInv

/-! ### Over a run -/

variable {cfg : ViewConfig}

theorem fetchInv_of_reach {p : ViewPool lib.Text}
    (hr : (viewService lib cfg).Reach .any ⟨[], {}⟩ p) : ∃ ts, FetchInv ts p.shared := by
  suffices h : ∃ ts, SeqInv ts p.shared ∧ FetchInv ts p.shared by
    obtain ⟨ts, -, h⟩ := h
    exact ⟨ts, h⟩
  refine view_invariant hr ?_ (fun h hi ha _ hx ↦ h.call hi ha hx) ?_ ?_
  · exact ⟨List.nodup_nil, fun _ _ he ↦ (nomatch he), fun _ _ hi ↦ (nomatch hi),
      fun _ _ hr ↦ (nomatch hr), fun _ hf ↦ (nomatch hf)⟩
  · intro ts e p p' h _ hx
    have haltered {f : MessageRow → MessageRow} (hf : ∀ r : MessageRow, r.SameAs (f r)) :
        FetchInv ts (p.shared.alter f) :=
      h.move (h.ids.map hf) (later_map hf) (fun _ _ he ↦ he) rfl rfl fun _ _ hj ↦ hj
    cases e with
    | recallMessage mid =>
      obtain rfl := Option.some.inj hx
      exact haltered (sameAs_recall mid)
    | deleteMessage mid =>
      obtain rfl := Option.some.inj hx
      exact haltered (sameAs_delete mid)
    | expire key =>
      obtain rfl := Option.some.inj hx
      refine h.move h.ids (.refl _) (fun key' e he ↦ ?_) rfl rfl fun _ _ hj ↦ hj
      rcases eq_or_ne key' key with rfl | hne
      · cases (Function.update_self key' none p.shared.cache).symm.trans he
      · exact (Function.update_of_ne hne _ _).symm.trans he
    | arrive | query | deliver | crash =>
      obtain rfl := Option.some.inj hx
      exact h.stay rfl rfl rfl rfl fun _ _ hj ↦ hj
  · intro ts s t h ht
    refine ⟨h.ids, h.cached, fun j ph hj ↦ ?_, h.before, h.fetched⟩
    rcases Pool.getElem?_append_cases hj with ⟨-, heq⟩ | ⟨-, hold⟩
    · rcases ht with rfl | ⟨auth_uid, req, rfl⟩
      · obtain rfl := ViewCall.read.inj heq
        trivial
      · cases heq
    · exact h.held j ph hold

/-- **When the last message is the last.** In every run, a preview that goes into a response is that
of the last message of its conversation, with the status that the message has, if and only if the
message that the read of the table has found after the cursor is the last one when the preview is
given, and has kept its status since. -/
theorem last_message_iff {p : ViewPool lib.Text}
    (hr : (viewService lib cfg).Reach .any ⟨[], {}⟩ p) {f : Fetched} (hf : f ∈ p.shared.fetched) :
    f.Latest ↔ f.Undisturbed := by
  obtain ⟨ts, h⟩ := fetchInv_of_reach hr
  obtain ⟨r, hgives, hpreview⟩ := h.fetched f hf
  obtain ⟨x, cid, preview⟩ := f
  obtain rfl : preview = r.preview := hpreview
  exact hgives.latest_iff cid

/-- Alice sends a message, and bob looks at the group. -/
def bobLooks : List ViewLabel := aliceAndBob ++ aliceSays 1 1 1 ++ bobAsks 2 (.get "g_1") 11

theorem last_message_iff_bob :
    ∃ p : ViewPool JsonLib.plain.Text, ∃ f,
      (viewService .plain ⟨⟨""⟩, {}, id⟩).Reach .any ⟨[], {}⟩ p ∧ f ∈ p.shared.fetched ∧
      (f.Latest ↔ f.Undisturbed) := by
  obtain ⟨p, hr, f, hf, -⟩ := Machine.exists_of_run
    (viewService .plain ⟨⟨""⟩, {}, id⟩) .any ⟨[], {}⟩
    bobLooks (fun p ↦ ∃ f ∈ p.shared.fetched, f.Latest) (by decide +kernel)
  exact ⟨p, f, hr, hf, last_message_iff hr hf⟩

/-- **The last message is another**: when there are two, bob is shown the first; and when he has
been shown one, he is shown it again as it was after it has been recalled. -/
theorem shows_another_message :
    (∃ p : ViewPool JsonLib.plain.Text, ∃ f,
      (viewService .plain ⟨⟨""⟩, {}, id⟩).Reach .any ⟨[], {}⟩ p ∧ f ∈ p.shared.fetched ∧
      f.preview.message_id = 1 ∧ (last_live f.now f.cid).map (·.message_id) = some 2 ∧
      ¬f.Latest) ∧
    ∃ p : ViewPool JsonLib.plain.Text, ∃ f,
      (viewService .plain ⟨⟨""⟩, {}, id⟩).Reach .any ⟨[], {}⟩ p ∧ f ∈ p.shared.fetched ∧
      f.preview.status = .MESSAGE_STATUS_NORMAL ∧
      (last_live f.now f.cid).map (·.status) = some .REVOKED ∧ ¬f.Latest := by
  constructor
  · obtain ⟨p, hr, f, hf, hid, hlast, hwrong⟩ := Machine.exists_of_run
      (viewService .plain ⟨⟨""⟩, {}, id⟩) .any ⟨[], {}⟩
      (aliceAndBob ++ aliceSays 1 1 1 ++ aliceSays 2 2 2 ++ bobAsks 3 (.get "g_1") 11)
      (fun p ↦ ∃ f ∈ p.shared.fetched, f.preview.message_id = 1 ∧
        (last_live f.now f.cid).map (·.message_id) = some 2 ∧ ¬f.Latest) (by decide +kernel)
    exact ⟨p, f, hr, hf, hid, hlast, hwrong⟩
  · obtain ⟨p, hr, f, hf, hstatus, hlast, hwrong⟩ := Machine.exists_of_run
      (viewService .plain ⟨⟨""⟩, {}, id⟩) .any ⟨[], {}⟩
      (bobLooks ++ .event (.recallMessage 1) :: bobAsks 3 (.get "g_1") 5)
      (fun p ↦ ∃ f ∈ p.shared.fetched, f.preview.status = .MESSAGE_STATUS_NORMAL ∧
        (last_live f.now f.cid).map (·.status) = some .REVOKED ∧ ¬f.Latest) (by decide +kernel)
    exact ⟨p, f, hr, hf, hstatus, hlast, hwrong⟩

end ChatNow
