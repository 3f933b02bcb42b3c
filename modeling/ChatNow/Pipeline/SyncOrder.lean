import ChatNow.Pipeline.HandOff

/-!
# Incremental sync

A client asks for what comes after the greatest sequence number it has received. Sequence numbers
are given out before the messages are stored, and messages are stored in any order, so a number can
come into the table below one that a client has already been given, and the client never asks for it
(`late_row_is_missed`).

That is all that can go wrong. `synced_of_storedInOrder` shows that whatever the order of requests,
deliveries, page limits and overlapping sync calls, a client has been given every live row up to its
cursor in every run in which each stored row lies above the pages already read of its conversation.
-/

namespace ChatNow

open Prog PipeOp OnDBMessage

/-- A row is stored only above every page that has been read of its conversation. -/
def storedInOrder (collate : String → String) : PipeGuard where
  onOp
    | _, insertMessage row _, c, s => c.acts = true → ¬ conflicts collate s.rows row →
      ∀ q ∈ s.pages, q.1 = row.session_id → ∀ r ∈ q.2, r.seq_id < row.seq_id
    | _, _, _, _ => True
  onEv _ _ := True

/-- Every client has been given every live row up to its cursor. -/
def Synced (s : Pipe) : Prop :=
  ∀ client, ∀ r ∈ s.rows, r.status ≠ .DELETED →
    r.seq_id ≤ cursor (s.inbox client r.session_id) →
    ∃ m ∈ s.inbox client r.session_id, m.message_id = r.message_id.toInt64

/-! ### Cursors -/

theorem le_max_seq (a b c : UInt64) : a ≤ max b c ↔ a ≤ b ∨ a ≤ c := by
  show a ≤ (if b ≤ c then c else b) ↔ _
  simp only [UInt64.le_iff_toNat_le]
  split <;> omega

theorem le_foldl_max {a b : UInt64} {ns : List UInt64} :
    a ≤ ns.foldl max b ↔ a ≤ b ∨ ∃ n ∈ ns, a ≤ n := by
  induction ns generalizing b with
  | nil => simp
  | cons n ns ih => simp [ih, le_max_seq, or_assoc]

theorem le_cursor {a : UInt64} {msgs : List Message} :
    a ≤ cursor msgs ↔ a = 0 ∨ ∃ m ∈ msgs, a ≤ m.seq_id := by
  rw [cursor, le_foldl_max]
  have hzero : a ≤ 0 ↔ a = 0 := by
    rw [UInt64.le_iff_toNat_le, ← UInt64.toNat_inj]
    simp
  simp [hzero]

theorem cursor_append_le (msgs msgs' : List Message) : cursor msgs ≤ cursor (msgs ++ msgs') := by
  have hself : cursor msgs ≤ cursor msgs := UInt64.le_refl _
  rcases le_cursor.1 hself with h | ⟨m, hm, hle⟩
  · exact le_cursor.2 (.inl h)
  · exact le_cursor.2 (.inr ⟨m, List.mem_append_left _ hm, hle⟩)

/-! ### Pages -/

/-- No two rows share a conversation and a sequence number. -/
def UniqueSeq (rows : List MessageRow) : Prop :=
  ∀ r ∈ rows, ∀ r' ∈ rows, r.session_id = r'.session_id → r.seq_id = r'.seq_id →
    r.message_id = r'.message_id

/-- The page has every live row after the given number and up to its own greatest. -/
def Covers (rows : List MessageRow) (cid : String) (after_seq : UInt64) (page : List MessageRow) :
    Prop :=
  ∀ r ∈ rows, r.session_id = cid → r.status ≠ .DELETED → after_seq < r.seq_id →
    (∃ q ∈ page, r.seq_id ≤ q.seq_id) → ∃ q ∈ page, q.message_id = r.message_id

instance : Std.Total fun a b : MessageRow ↦ a.seq_id ≤ b.seq_id :=
  ⟨fun a b ↦ UInt64.le_total a.seq_id b.seq_id⟩

instance : IsTrans MessageRow fun a b ↦ a.seq_id ≤ b.seq_id :=
  ⟨fun _ _ _ hab hbc ↦ UInt64.le_trans hab hbc⟩

/-- A page read from the table covers what it spans. -/
theorem covers_of_prefix {rows : List MessageRow} {cid : String} {after_seq : UInt64} {limit : ℕ}
    {page : List MessageRow} (hu : UniqueSeq rows)
    (h : page <+: select_after rows cid after_seq limit) : Covers rows cid after_seq page := by
  intro r hr hcid hlive hafter ⟨q, hq, hle⟩
  set all := (rows.filter fun r ↦ r.session_id = cid ∧ after_seq < r.seq_id ∧
    r.status ≠ .DELETED).insertionSort fun a b ↦ a.seq_id ≤ b.seq_id with hall
  obtain ⟨rest, hrest⟩ : page <+: all := h.trans (List.take_prefix _ _)
  have hmem : r ∈ page ++ rest := by
    rw [hrest, hall, List.mem_insertionSort, List.mem_filter]
    exact ⟨hr, by simp [hcid, hafter, hlive]⟩
  rcases List.mem_append.1 hmem with hp | hp
  · exact ⟨r, hp, rfl⟩
  · -- a row behind the page has no smaller number than one in it, so here it has the same
    have hqall : q ∈ all := by
      rw [← hrest]
      exact List.mem_append_left _ hq
    rw [hall, List.mem_insertionSort, List.mem_filter] at hqall
    obtain ⟨hqr, hqc⟩ := hqall
    simp only [decide_eq_true_eq] at hqc
    have hsorted : all.Pairwise fun a b ↦ a.seq_id ≤ b.seq_id := List.pairwise_insertionSort _ _
    rw [← hrest, List.pairwise_append] at hsorted
    have hge := hsorted.2.2 q hq r hp
    exact ⟨q, hq, hu q hqr r hr (hqc.1.trans hcid.symm) (UInt64.le_antisymm hge hle)⟩

/-! ### The invariant -/

/-- What the pipeline keeps of sync, beside what it has given. -/
structure SyncInv (ts : List Thread) (s : Pipe) : Prop where
  unique : UniqueSeq s.rows
  inbox : ∀ client cid, ∀ m ∈ s.inbox client cid, ∃ q ∈ s.pages, q.1 = cid ∧
    ∃ r ∈ q.2, r.seq_id = m.seq_id
  asking : ∀ (i client : ℕ) (cid : String) (after_seq : UInt64) (ph : SyncPhase),
    ts[i]? = some (.sync client cid after_seq ph) → after_seq ≤ cursor (s.inbox client cid)
  read : ∀ (i client : ℕ) (cid : String) (after_seq : UInt64) (page : List MessageRow),
    ts[i]? = some (.sync client cid after_seq (.read page)) →
    (cid, page) ∈ s.pages ∧ Covers s.rows cid after_seq page
  synced : Synced s

namespace SyncInv

variable {cfg : PipeConfig} {ts ts' : List Thread} {s s' : Pipe}

/-- A move that stores nothing, reads no page and delivers none. -/
theorem of_eq (h : SyncInv ts s) (hr : s'.rows = s.rows) (hp : s'.pages = s.pages)
    (hi : s'.inbox = s.inbox)
    (ht : ∀ (i client : ℕ) (cid : String) (after_seq : UInt64) (ph : SyncPhase),
      ts'[i]? = some (.sync client cid after_seq ph) →
      ts[i]? = some (.sync client cid after_seq ph) ∨
        ph = .asking ∧ after_seq ≤ cursor (s.inbox client cid)) : SyncInv ts' s' := by
  refine ⟨?_, ?_, fun i client cid after_seq ph hi' ↦ ?_, fun i client cid after_seq page hi' ↦ ?_,
    ?_⟩
  · rw [hr]
    exact h.unique
  · rw [hi, hp]
    exact h.inbox
  · rw [hi]
    rcases ht i client cid after_seq ph hi' with h' | ⟨-, h'⟩
    · exact h.asking i client cid after_seq ph h'
    · exact h'
  · rw [hr, hp]
    rcases ht i client cid after_seq _ hi' with h' | ⟨h', -⟩
    · exact h.read i client cid after_seq page h'
    · cases h'
  · rw [Synced]
    rw [hr, hi]
    exact h.synced

/-- A row is stored above every page read of its conversation. -/
theorem commit (h : SyncInv ts s) {collate : String → String} {row : MessageRow}
    (hseq : row.seq_id ≠ 0) (hfree : ¬ conflicts collate s.rows row)
    (hpages : ∀ q ∈ s.pages, q.1 = row.session_id → ∀ r ∈ q.2, r.seq_id < row.seq_id)
    (hr : s'.rows = s.rows ++ [row]) (hp : s'.pages = s.pages) (hi : s'.inbox = s.inbox)
    (ht : ∀ (i client : ℕ) (cid : String) (after_seq : UInt64) (ph : SyncPhase),
      ts'[i]? = some (.sync client cid after_seq ph) →
      ts[i]? = some (.sync client cid after_seq ph)) : SyncInv ts' s' := by
  have hnew : ∀ r ∈ s.rows, r.session_id = row.session_id → r.seq_id ≠ row.seq_id :=
    fun r hr hs hq ↦ hfree ⟨r, hr, .inr (.inl ⟨congrArg collate hs, hq⟩)⟩
  refine ⟨?_, ?_, fun i client cid after_seq ph hi' ↦ ?_, fun i client cid after_seq page hi' ↦ ?_,
    ?_⟩
  · rw [hr]
    intro r hmem r' hmem' hs hq
    rcases List.mem_append.1 hmem with hold | hlast
    · rcases List.mem_append.1 hmem' with hold' | hlast'
      · exact h.unique r hold r' hold' hs hq
      · obtain rfl := List.mem_singleton.1 hlast'
        exact absurd hq (hnew r hold hs)
    · obtain rfl := List.mem_singleton.1 hlast
      rcases List.mem_append.1 hmem' with hold' | hlast'
      · exact absurd hq.symm (hnew r' hold' hs.symm)
      · rw [List.mem_singleton.1 hlast']
  · rw [hi, hp]
    exact h.inbox
  · rw [hi]
    exact h.asking i client cid after_seq ph (ht _ _ _ _ _ hi')
  · obtain ⟨hpage, hcov⟩ := h.read i client cid after_seq page (ht _ _ _ _ _ hi')
    rw [hr, hp]
    refine ⟨hpage, fun r hr hs hlive hafter hspan ↦ ?_⟩
    rcases List.mem_append.1 hr with hr | hr
    · exact hcov r hr hs hlive hafter hspan
    · obtain rfl := List.mem_singleton.1 hr
      obtain ⟨q, hq, hle⟩ := hspan
      exact absurd (hpages _ hpage hs.symm q hq) (UInt64.not_lt.2 hle)
  · intro client r hr' hlive hle
    rw [hi] at hle ⊢
    rw [hr] at hr'
    rcases List.mem_append.1 hr' with hr' | hr'
    · exact h.synced client r hr' hlive hle
    · obtain rfl := List.mem_singleton.1 hr'
      -- the cursor is a number from a page, and the new row lies above it
      rcases le_cursor.1 hle with h0 | ⟨m, hm, hle⟩
      · exact absurd h0 hseq
      · obtain ⟨q, hq, hqc, r', hr', heq⟩ := h.inbox client _ m hm
        have hlt := hpages q hq hqc r' hr'
        rw [heq] at hlt
        exact absurd hlt (UInt64.not_lt.2 hle)

/-- A sync call reads its page. -/
theorem readPage (h : SyncInv ts s) {i client limit : ℕ} {cid : String} {after_seq : UInt64}
    {page : List MessageRow} (hi : ts[i]? = some (.sync client cid after_seq .asking))
    (hpage : page <+: select_after s.rows cid after_seq limit) :
    SyncInv (ts.set i (.sync client cid after_seq (.read page)))
      { s with pages := s.pages ++ [(cid, page)] } := by
  refine ⟨h.unique, fun client' cid' m hm ↦ ?_, fun j client' cid' a ph hj ↦ ?_,
    fun j client' cid' a page' hj ↦ ?_, h.synced⟩
  · obtain ⟨q, hq, hrest⟩ := h.inbox client' cid' m hm
    exact ⟨q, List.mem_append_left _ hq, hrest⟩
  · rcases Pool.getElem?_set_cases hj with ⟨rfl, heq⟩ | ⟨-, hj⟩
    · obtain ⟨rfl, rfl, rfl, -⟩ := Thread.sync.inj heq
      exact h.asking j client' cid' a _ hi
    · exact h.asking j client' cid' a ph hj
  · rcases Pool.getElem?_set_cases hj with ⟨rfl, heq⟩ | ⟨-, hj⟩
    · obtain ⟨rfl, rfl, rfl, hph⟩ := Thread.sync.inj heq
      obtain rfl := SyncPhase.read.inj hph
      exact ⟨List.mem_append_right _ (List.mem_singleton_self _), covers_of_prefix h.unique hpage⟩
    · obtain ⟨hmem, hcov⟩ := h.read j client' cid' a page' hj
      exact ⟨List.mem_append_left _ hmem, hcov⟩

/-- The page of a sync call reaches the client. -/
theorem deliverPage (h : SyncInv ts s) {i client : ℕ} {cid : String} {after_seq : UInt64}
    {ph : SyncPhase} {page : List MessageRow} (hi : ts[i]? = some (.sync client cid after_seq ph))
    (hph : ph = .read page ∨ ph = .asking ∧ page = []) :
    SyncInv (ts.set i (.sync client cid after_seq .answered))
      { s with inbox := Function.update s.inbox client (Function.update (s.inbox client) cid
          (s.inbox client cid ++ page.map convert_db_message_to_proto_)) } := by
  set inbox' := Function.update s.inbox client (Function.update (s.inbox client) cid
    (s.inbox client cid ++ page.map convert_db_message_to_proto_)) with hinbox
  -- one inbox grows by the page, the others stay
  have hself : inbox' client cid =
      s.inbox client cid ++ page.map convert_db_message_to_proto_ := by
    rw [hinbox, Function.update_self, Function.update_self]
  have hother : ∀ client' cid', ¬ (client' = client ∧ cid' = cid) →
      inbox' client' cid' = s.inbox client' cid' := by
    intro client' cid' hne
    rw [hinbox]
    rcases eq_or_ne client' client with rfl | hcl
    · rw [Function.update_self, Function.update_of_ne fun hc ↦ hne ⟨rfl, hc⟩]
    · rw [Function.update_of_ne hcl]
  have hgrow : ∀ client' cid', cursor (s.inbox client' cid') ≤ cursor (inbox' client' cid') := by
    intro client' cid'
    by_cases hc : client' = client ∧ cid' = cid
    · obtain ⟨rfl, rfl⟩ := hc
      rw [hself]
      exact cursor_append_le _ _
    · rw [hother client' cid' hc]
      exact UInt64.le_refl _
  have hread : ∀ q ∈ page, (cid, page) ∈ s.pages ∧ Covers s.rows cid after_seq page := by
    intro q hq
    rcases hph with rfl | ⟨-, rfl⟩
    · exact h.read i client cid after_seq page hi
    · cases hq
  have hafter := h.asking i client cid after_seq ph hi
  refine ⟨h.unique, fun client' cid' m hm ↦ ?_, fun j client' cid' a ph' hj ↦ ?_,
    fun j client' cid' a page' hj ↦ ?_, fun client' r hr hlive hle ↦ ?_⟩
  · by_cases hc : client' = client ∧ cid' = cid
    · obtain ⟨rfl, rfl⟩ := hc
      change m ∈ inbox' client' cid' at hm
      rw [hself] at hm
      rcases List.mem_append.1 hm with hm | hm
      · exact h.inbox client' cid' m hm
      · obtain ⟨r, hr, rfl⟩ := List.mem_map.1 hm
        exact ⟨_, (hread r hr).1, rfl, r, hr, rfl⟩
    · change m ∈ inbox' client' cid' at hm
      rw [hother client' cid' hc] at hm
      exact h.inbox client' cid' m hm
  · refine UInt64.le_trans ?_ (hgrow client' cid')
    rcases Pool.getElem?_set_cases hj with ⟨rfl, heq⟩ | ⟨-, hj⟩
    · obtain ⟨rfl, rfl, rfl, -⟩ := Thread.sync.inj heq
      exact hafter
    · exact h.asking j client' cid' a ph' hj
  · rcases Pool.getElem?_set_cases hj with ⟨-, heq⟩ | ⟨-, hj⟩
    · obtain ⟨-, -, -, hph'⟩ := Thread.sync.inj heq
      cases hph'
    · exact h.read j client' cid' a page' hj
  · change r.seq_id ≤ cursor (inbox' client' r.session_id) at hle
    show ∃ m ∈ inbox' client' r.session_id, _
    by_cases hc : client' = client ∧ r.session_id = cid
    · obtain ⟨rfl, hcid⟩ := hc
      rw [hcid, hself] at hle ⊢
      rcases Decidable.em (r.seq_id ≤ cursor (s.inbox client' cid)) with hold | hnew
      · obtain ⟨m, hm, hid⟩ := h.synced client' r hr hlive (hcid ▸ hold)
        exact ⟨m, List.mem_append_left _ (hcid ▸ hm), hid⟩
      · -- beyond the old cursor the number comes from the page, which covers the row
        have hspan : ∃ q ∈ page, r.seq_id ≤ q.seq_id := by
          rcases le_cursor.1 hle with h0 | ⟨m, hm, hle'⟩
          · exact absurd (le_cursor.2 (.inl h0)) hnew
          · rcases List.mem_append.1 hm with hm | hm
            · exact absurd (le_cursor.2 (.inr ⟨m, hm, hle'⟩)) hnew
            · obtain ⟨q, hq, rfl⟩ := List.mem_map.1 hm
              exact ⟨q, hq, hle'⟩
        have hgt : after_seq < r.seq_id := UInt64.lt_of_le_of_lt hafter (UInt64.not_le.1 hnew)
        obtain ⟨q₀, hq₀, -⟩ := id hspan
        obtain ⟨q, hq, hid⟩ := (hread q₀ hq₀).2 r hr hcid hlive hgt hspan
        refine ⟨_, List.mem_append_right _ (List.mem_map_of_mem hq), ?_⟩
        show q.message_id.toInt64 = _
        rw [hid]
    · rw [hother client' _ hc] at hle ⊢
      exact h.synced client' r hr hlive hle

/-- Rows are recalled or deleted. -/
theorem update (h : SyncInv ts s) {f : MessageRow → MessageRow} (hf : RowUpdate f) :
    SyncInv ts { s with rows := s.rows.map f } := by
  refine ⟨fun _ hmem _ hmem' hs hq ↦ ?_, h.inbox, h.asking, fun i client cid a page hi ↦ ?_,
    fun client _ hmem hlive hle ↦ ?_⟩
  · obtain ⟨r, hr, rfl⟩ := List.mem_map.1 hmem
    obtain ⟨r', hr', rfl⟩ := List.mem_map.1 hmem'
    rw [hf.session_id, hf.session_id] at hs
    rw [hf.seq_id, hf.seq_id] at hq
    rw [hf.message_id, hf.message_id]
    exact h.unique r hr r' hr' hs hq
  · obtain ⟨hpage, hcov⟩ := h.read i client cid a page hi
    refine ⟨hpage, fun _ hmem hs hlive hafter hspan ↦ ?_⟩
    obtain ⟨r, hr, rfl⟩ := List.mem_map.1 hmem
    rw [hf.session_id] at hs
    rw [hf.seq_id] at hafter hspan
    rw [hf.message_id]
    exact hcov r hr hs (hf.live r hlive) hafter hspan
  · obtain ⟨r, hr, rfl⟩ := List.mem_map.1 hmem
    rw [hf.session_id, hf.seq_id] at hle
    rw [hf.session_id, hf.message_id]
    exact h.synced client r hr (hf.live r hlive) hle

/-- What a request leaves alone. -/
theorem sync_of_send {collate : String → String} {key : Option String} {uid : String}
    {req : SendMessageReq} {i : ℕ} {o : PipeOp} {c : Choice} {ph ph' : SendPhase}
    (h : SendMove collate key uid req i o c ph s ph' s') :
    s'.rows = s.rows ∧ s'.pages = s.pages ∧ s'.inbox = s.inbox := by
  cases h with
  | quiet hs =>
    obtain ⟨_, _, _, rfl⟩ := hs
    exact ⟨rfl, rfl, rfl⟩
  | _ => exact ⟨rfl, rfl, rfl⟩

/-- Every message that the broker has received has a sequence number. -/
theorem seq_ne_zero {f : ℕ → Option Sender} {m : InternalMessage} (ht : Tracked f s.wire)
    (hm : s.Has m) : m.message.seq_id ≠ 0 := by
  obtain ⟨e, he, -, rfl⟩ := hm
  obtain ⟨x, -, hasm, -⟩ := ht.entry e he
  exact hasm.seq_ne_zero

/-- Sync keeps its order through every move. -/
theorem step (ht : Tracked (senders ts) s.wire) (hf : Flow ts s) (h : SyncInv ts s)
    (hm : Move cfg (storedInOrder cfg.collate) ts s ts' s') : SyncInv ts' s' := by
  cases hm with
  | send hi _ hm =>
    obtain ⟨hr, hp, hin⟩ := sync_of_send hm
    refine h.of_eq hr hp hin fun j client cid a ph hj ↦ .inl ?_
    exact Pool.getElem?_of_set hj (by simp)
  | @consume _ _ i d _ ph' _ c hi hG hm =>
    -- the sync calls stay where they are
    have hkeep : ∀ (j client : ℕ) (cid : String) (a : UInt64) (ph : SyncPhase),
        (ts.set i (.consume d ph'))[j]? = some (.sync client cid a ph) →
        ts[j]? = some (.sync client cid a ph) := fun _ _ _ _ _ hj ↦
      Pool.getElem?_of_set hj (by simp)
    cases hm with
    | commit he hph hfree =>
      have hseq : d.msg.message.seq_id ≠ 0 := seq_ne_zero ht (hf.handler _ _ _ hi)
      have hacts : c.acts = true := by
        rcases hph with ⟨hf, -⟩ | ⟨-, hl, -⟩
        · exact Choice.acts_of_not_fault hf
        · rw [Choice.acts, hl, Bool.or_true]
      exact h.commit hseq hfree (hG hacts hfree) rfl rfl rfl hkeep
    | @settle _ _ _ action _ =>
      have hs : (s.settle i action).pages = s.pages ∧ (s.settle i action).inbox = s.inbox := by
        cases action <;> exact ⟨rfl, rfl⟩
      refine h.of_eq (settle_rows _ _ _) hs.1 hs.2 fun j client cid a ph hj ↦ .inl ?_
      exact hkeep j client cid a ph hj
    | _ => exact h.of_eq rfl rfl rfl fun j client cid a ph hj ↦ .inl (hkeep j client cid a ph hj)
  | sync hi _ hm =>
    cases hm with
    | read hpage => exact h.readPage hi hpage
    | deliver hph hrsp =>
      rw [hrsp]
      exact h.deliverPage hi hph
    | quiet =>
      refine h.of_eq rfl rfl rfl fun j client cid a ph hj ↦ .inl ?_
      rcases Pool.getElem?_set_cases hj with ⟨rfl, heq⟩ | ⟨-, hj⟩
      · rw [heq]
        exact hi
      · exact hj
  | event _ _ hm =>
    cases hm with
    | request _ _ | deliver _ =>
      refine h.of_eq rfl rfl rfl fun j client cid a ph hj ↦ .inl ?_
      exact Pool.getElem?_of_append hj (by simp)
    | crash _ =>
      refine h.of_eq rfl rfl rfl fun j client cid a ph hj ↦ .inl ?_
      exact Pool.getElem?_of_set hj (by simp)
    | sync client rid uid cid limit =>
      refine h.of_eq rfl rfl rfl fun j client' cid' a ph hj ↦ ?_
      rcases Pool.getElem?_append_cases hj with ⟨-, heq⟩ | ⟨-, hj⟩
      · obtain ⟨rfl, rfl, rfl, rfl⟩ := Thread.sync.inj heq
        exact .inr ⟨rfl, UInt64.le_refl _⟩
      · exact .inl hj
    | update hf => exact h.update hf
    | _ => exact h.of_eq rfl rfl rfl fun j client cid a ph hj ↦ .inl hj

end SyncInv

/-! ### The result -/

/-- What the pipeline keeps, when rows are stored in order. -/
def SyncOrder (ts : List Thread) (s : Pipe) : Prop :=
  Handlers ts s ∧ Tracked (senders ts) s.wire ∧ Flow ts s ∧ SyncInv ts s

theorem syncOrder_init : SyncOrder [] {} := by
  refine ⟨?_, ⟨?_, ?_, ?_⟩, ⟨?_, ?_, ?_⟩, ⟨?_, ?_, ?_, ?_, ?_⟩⟩ <;>
    simp [Handlers, senders, UniqueSeq, Synced, Pipe.InTransit]

theorem syncOrder_step {cfg : PipeConfig} {ts ts' : List Thread} {s s' : Pipe}
    (h : SyncOrder ts s) (hm : Move cfg (storedInOrder cfg.collate) ts s ts' s') :
    SyncOrder ts' s' := by
  obtain ⟨hh, ht, hf, hs⟩ := h
  exact ⟨hh.step hm, ht.step (hm.onSenders hh), hf.step hh hm, hs.step ht hf hm⟩

/-- **Incremental sync loses nothing**, in every run in which each row is stored above the pages
that have been read of its conversation. -/
theorem synced_of_storedInOrder (cfg : PipeConfig) (p : PipePool)
    (hr : (pipeline cfg).Reach (storedInOrder cfg.collate) Pipe.init p) : Synced p.shared := by
  obtain ⟨ts, ⟨-, -, -, h⟩, -⟩ := pipeline_invariant hr syncOrder_init syncOrder_step
  exact h.synced

instance (collate : String → String) (i : ℕ) (o : PipeOp) (c : Choice) (s : Pipe) :
    Decidable ((storedInOrder collate).onOp i o c s) := by
  refine o.decidableOfInsert (P := fun o ↦ (storedInOrder collate).onOp i o c s)
    (fun row _ ↦ ?_) fun h ↦ ?_
  · exact decidable_of_iff (c.acts = true → ¬ conflicts collate s.rows row →
      ∀ q ∈ s.pages, q.1 = row.session_id → ∀ r ∈ q.2, r.seq_id < row.seq_id) Iff.rfl
  · cases o with
    | insertMessage row timeline => exact absurd rfl (h row timeline)
    | _ => exact trivial

instance (collate : String → String) (e : PipeEv) (p : PipePool) :
    Decidable ((storedInOrder collate).onEv e p) := .isTrue trivial

/-- Two messages are sent to one conversation, and the broker has both. -/
def twoSent : List PipeLabel :=
  .event (.request "alice" (textTo "c1" "m1")) :: List.replicate 10 (.call 0 (smooth 0)) ++
  .event (.request "bob" (textTo "c1" "m2")) :: List.replicate 10 (.call 1 (smooth 1)) ++
  [.event (.receive 0), .event (.receive 1)]

/-- The `n`-th message of the queue is delivered to thread `i` and stored. -/
def storedBy (i n : ℕ) : List PipeLabel := [.event (.deliver n), .call i (smooth 0)]

/-- Bob's client syncs, in thread `i`. -/
def syncedBy (i : ℕ) : List PipeLabel :=
  .event (.sync 7 "r" "bob" "c1" 50) :: List.replicate 4 (.call i (smooth 0))

/-- Stored in order and synced twice, the client has both messages. -/
theorem synced_in_order :
    ∃ p, (pipeline {}).Reach (storedInOrder id) Pipe.init p ∧
      (p.shared.inbox 7 "c1").map (·.seq_id) = [1, 2] ∧ Synced p.shared := by
  obtain ⟨p, hp, hinbox⟩ := Machine.exists_of_run (pipeline {}) (storedInOrder id) Pipe.init
    (twoSent ++ storedBy 2 0 ++ syncedBy 3 ++ storedBy 4 0 ++ syncedBy 5)
    (fun p ↦ (p.shared.inbox 7 "c1").map (·.seq_id) = [1, 2]) (by decide)
  exact ⟨p, hp, hinbox, synced_of_storedInOrder {} p hp⟩

/-! ### A late row -/

/-- The second message is stored and synced before the first. -/
theorem late_row_is_missed : ∃ p, (pipeline {}).Reach .any Pipe.init p ∧ ¬ Synced p.shared := by
  obtain ⟨p, hp, r, hr, hlive, hle, hnot⟩ := Machine.exists_of_run (pipeline {}) .any Pipe.init
    (twoSent ++ storedBy 2 1 ++ syncedBy 3 ++ storedBy 4 0)
    (fun p ↦ ∃ r ∈ p.shared.rows, r.status ≠ .DELETED ∧
      r.seq_id ≤ cursor (p.shared.inbox 7 r.session_id) ∧
      ∀ m ∈ p.shared.inbox 7 r.session_id, m.message_id ≠ r.message_id.toInt64) (by decide)
  refine ⟨p, hp, fun h ↦ ?_⟩
  obtain ⟨m, hm, hid⟩ := h 7 r hr hlive hle
  exact hnot m hm hid

end ChatNow
