import ChatNow.Lib.Paging
import ChatNow.Message.Reads

/-!
# History and sync, page after page

A client walks through a conversation: with `GetHistory` downwards, going on from the smallest
sequence number that it has received, with `SyncMessages` upwards, going on from the greatest. The
tables stand still, and the queries succeed.

Both RPCs read one row more than the limit and drop it again, so a page is the beginning of what
stands behind the cursor, and the flag says whether anything is left (`GetHistory_eq`,
`SyncMessages_eq`). `Paging` does the rest: `walk_eq` makes a walk the pages of one list.
-/

namespace ChatNow

open Paging

/-! ### A walk -/

/-- A client that asks for page after page while it is told that there are more, each with a limit
of its own. `next` makes the next cursor of the messages of a page. -/
def walk (ask : UInt64 → Int32 → Except ServiceError (List Message × Bool))
    (next : List Message → Option UInt64) :
    UInt64 → List Int32 → Except ServiceError (List (List Message × Bool))
  | _, [] => .ok []
  | cursor, limit :: limits => do
    let page ← ask cursor limit
    match page.2, next page.1 with
    | true, some cursor => do
      let rest ← walk ask next cursor limits
      return page :: rest
    | _, _ => return [page]

/-- A limit that the RPCs accept. -/
def InRange (limit : Int32) : Prop := 0 < limit.toInt ∧ limit.toInt ≤ kMaxLimit

instance (limit : Int32) : Decidable (InRange limit) := inferInstanceAs (Decidable (_ ∧ _))

/-- A walk delivers a list: its beginning, each page with the right flag, and all of it, up to a
page without more, when there are more limits than messages. -/
structure Delivers (all : List Message) (limits : ℕ) (ps : List (List Message × Bool)) : Prop where
  inOrder : entries ps <+: all
  more : ∀ pre p post, ps = pre ++ p :: post → (p.2 = true ↔ entries (pre ++ [p]) ≠ all)
  complete : all.length < limits → entries ps = all ∧ ∃ pre p, ps = pre ++ [(p, false)]

/-- The messages `all`, in the order `r` of their numbers, are what is served behind the cursors. -/
structure PageServer (all : List Message) (r : UInt64 → UInt64 → Prop) [DecidableRel r]
    (accepts : UInt64 → Prop) (ask : UInt64 → Int32 → Except ServiceError (List Message × Bool))
    (next : List Message → Option UInt64) : Prop where
  sorted : all.Pairwise fun a b ↦ r a.seq_id b.seq_id
  accepts_of : ∀ k k', r k k' → accepts k
  asked : ∀ cursor limit, accepts cursor → InRange limit →
    ask cursor limit = .ok ((beyond (·.seq_id) r all cursor).take limit.toInt.toNat,
      decide (limit.toInt.toNat < (beyond (·.seq_id) r all cursor).length))
  next_eq : ∀ page m, (page ++ [m]).Pairwise (fun a b ↦ r a.seq_id b.seq_id) →
    next (page ++ [m]) = some m.seq_id

section Walk

variable {all : List Message} {r : UInt64 → UInt64 → Prop} [DecidableRel r] [IsTrans UInt64 r]
  [Std.Asymm r] {accepts : UInt64 → Prop}
  {ask : UInt64 → Int32 → Except ServiceError (List Message × Bool)}
  {next : List Message → Option UInt64}

/-- The walk goes on. -/
theorem walk_of_more {cursor k : UInt64} {limit : Int32} {limits : List Int32} {ms : List Message}
    {rest : List (List Message × Bool)} (hask : ask cursor limit = .ok (ms, true))
    (hnext : next ms = some k) (hrest : walk ask next k limits = .ok rest) :
    walk ask next cursor (limit :: limits) = .ok ((ms, true) :: rest) := by
  rw [walk, hask]
  simp only [bind, Except.bind, hnext, hrest]
  rfl

/-- The walk ends. -/
theorem walk_of_last {cursor : UInt64} {limit : Int32} (limits : List Int32) {ms : List Message}
    (hask : ask cursor limit = .ok (ms, false)) :
    walk ask next cursor (limit :: limits) = .ok [(ms, false)] := by
  rw [walk, hask]
  rfl

/-- A walk is the pages of what stands behind its cursor. -/
theorem PageServer.walk_eq (h : PageServer all r accepts ask next) {cursor : UInt64}
    {limits : List Int32} (hcursor : accepts cursor) (hlimits : ∀ l ∈ limits, InRange l) :
    walk ask next cursor limits =
      .ok (pages (limits.map (·.toInt.toNat)) (beyond (·.seq_id) r all cursor)) := by
  induction limits generalizing cursor with
  | nil => rfl
  | cons limit limits ih =>
    have hlimit := hlimits limit List.mem_cons_self
    have hask := h.asked cursor limit hcursor hlimit
    rw [List.map_cons]
    set l := beyond (·.seq_id) r all cursor with hl
    have hsorted : l.Pairwise fun a b ↦ r a.seq_id b.seq_id := pairwise_beyond h.sorted cursor
    set n := limit.toInt.toNat with hn
    have hpos : 0 < n := by
      have hgt := hlimit.1
      omega
    by_cases hmore : n < l.length
    · -- the cursor goes to the last message of the page, and behind it is what the page left out
      obtain hnil | ⟨page, m, hpage⟩ := (l.take n).eq_nil_or_concat
      · have hlen := congrArg List.length hnil
        rw [List.length_take, List.length_nil] at hlen
        omega
      rw [List.concat_eq_append] at hpage
      have hsplit : l = page ++ m :: l.drop n := by
        rw [List.append_cons, ← hpage, List.take_append_drop]
      have hnext : next (l.take n) = some m.seq_id := by
        rw [hpage]
        refine h.next_eq page m ?_
        rw [← hpage]
        exact hsorted.sublist (List.take_sublist _ _)
      have hbehind := beyond_next h.sorted (hl.symm.trans hsplit)
      have haccepts : accepts m.seq_id := by
        have hb : l[n] ∈ beyond (·.seq_id) r all m.seq_id := by
          rw [hbehind, List.drop_eq_getElem_cons hmore]
          exact List.mem_cons_self
        exact h.accepts_of _ _ (mem_beyond.1 hb).2
      rw [decide_eq_true hmore] at hask
      rw [pages_cons_of_lt hmore, ← hbehind]
      exact walk_of_more hask hnext
        (ih haccepts fun l hl ↦ hlimits l (List.mem_cons_of_mem _ hl))
    · rw [decide_eq_false hmore, List.take_of_length_le (by omega)] at hask
      rw [pages_cons_of_le (by omega)]
      exact walk_of_last limits hask

/-- **What a walk delivers** is what stands behind its cursor. -/
theorem PageServer.delivers (h : PageServer all r accepts ask next) {cursor : UInt64}
    {limits : List Int32} (hcursor : accepts cursor) (hlimits : ∀ l ∈ limits, InRange l) :
    ∃ ps, walk ask next cursor limits = .ok ps ∧
      Delivers (beyond (·.seq_id) r all cursor) limits.length ps := by
  refine ⟨_, h.walk_eq hcursor hlimits, pages_prefix _ _, fun _ _ _ hsplit ↦ pages_more hsplit,
    fun henough ↦ pages_complete ?_ (by rwa [List.length_map])⟩
  rintro n hn
  obtain ⟨l, hl, rfl⟩ := List.mem_map.1 hn
  have hgt := (hlimits l hl).1
  omega

end Walk

/-! ### The pages of the two RPCs -/

/-- A page is the beginning of what one row more than the limit is read from. -/
theorem page_take (limit : ℕ) (l : List MessageRow) :
    SyncMessages.page limit (l.take (limit + 1)) = (l.take limit, decide (limit < l.length)) := by
  rw [SyncMessages.page, List.length_take]
  by_cases h : limit < l.length
  · have hlen : (l.take (limit + 1)).length - 1 = limit := by
      rw [List.length_take]
      omega
    rw [if_pos (by omega), decide_eq_true h, List.dropLast_eq_take, hlen, List.take_take,
      min_eq_left (by omega)]
  · rw [if_neg (by omega), decide_eq_false h, List.take_of_length_le (by omega),
      List.take_of_length_le (by omega)]

namespace ReadTables

variable (t : ReadTables) (uid cid : String)

/-- The sequence numbers of the conversation are distinct. -/
def DistinctSeq : Prop := ((t.messages.filter (·.session_id = cid)).map (·.seq_id)).Nodup

instance : Decidable (t.DistinctSeq cid) := inferInstanceAs (Decidable (List.Nodup _))

/-- The message is that of a row of the conversation that is not deleted. -/
def HasLive (m : Message) : Prop :=
  ∃ r ∈ t.messages, r.session_id = cid ∧ r.status ≠ .DELETED ∧ m = convert_db_message_to_proto_ r

/-- The rows of a conversation that are not deleted, in an order of their numbers. -/
def live_rows (le : UInt64 → UInt64 → Prop) [DecidableRel le] : List MessageRow :=
  (t.messages.filter fun r ↦ r.session_id = cid ∧ r.status ≠ .DELETED).insertionSort
    fun a b ↦ le a.seq_id b.seq_id

/-- A walk with `GetHistory`, from the smallest number received to the next page. -/
def history_walk : UInt64 → List Int32 → Except ServiceError (List (List Message × Bool)) :=
  walk
    (fun before_seq limit ↦
      (t.GetHistory {} uid { conversation_id := cid, before_seq, limit }).map
        fun rsp ↦ (rsp.messages, rsp.has_more))
    fun ms ↦ (ms.map (·.seq_id)).min?

/-- A walk with `SyncMessages`, from the greatest number received to the next page. -/
def sync_walk : UInt64 → List Int32 → Except ServiceError (List (List Message × Bool)) :=
  walk
    (fun after_seq limit ↦
      (t.SyncMessages {} uid { conversation_id := cid, after_seq, limit }).map
        fun rsp ↦ (rsp.messages, rsp.has_more))
    fun ms ↦ (ms.map (·.seq_id)).max?

variable {t uid cid}

/-- A row of the conversation is told by its number. -/
theorem DistinctSeq.eq (h : t.DistinctSeq cid) {r r' : MessageRow} (hr : r ∈ t.messages)
    (hr' : r' ∈ t.messages) (hcid : r.session_id = cid) (hcid' : r'.session_id = cid)
    (hseq : r.seq_id = r'.seq_id) : r = r' :=
  List.inj_on_of_nodup_map h (List.mem_filter.2 ⟨hr, decide_eq_true hcid⟩)
    (List.mem_filter.2 ⟨hr', decide_eq_true hcid'⟩) hseq

section Sorted

variable {le : UInt64 → UInt64 → Prop} [DecidableRel le]

theorem mem_live_rows {r : MessageRow} :
    r ∈ t.live_rows cid le ↔ r ∈ t.messages ∧ r.session_id = cid ∧ r.status ≠ .DELETED := by
  rw [live_rows, List.mem_insertionSort, List.mem_filter, decide_eq_true_iff]

variable [Std.Total le] [IsTrans UInt64 le]

theorem pairwise_sort (rows : List MessageRow) :
    (rows.insertionSort fun a b ↦ le a.seq_id b.seq_id).Pairwise
      fun a b ↦ le a.seq_id b.seq_id := by
  have htotal : Std.Total fun a b : MessageRow ↦ le a.seq_id b.seq_id :=
    ⟨fun a b ↦ Std.Total.total a.seq_id b.seq_id⟩
  have htrans : IsTrans MessageRow fun a b ↦ le a.seq_id b.seq_id :=
    ⟨fun _ _ _ hab hbc ↦ IsTrans.trans _ _ _ hab hbc⟩
  exact List.pairwise_insertionSort _ _

/-- The rows strictly follow each other. -/
theorem pairwise_live_rows (h : t.DistinctSeq cid) :
    (t.live_rows cid le).Pairwise fun a b ↦ le a.seq_id b.seq_id ∧ a.seq_id ≠ b.seq_id := by
  have hnodup : ((t.live_rows cid le).map (·.seq_id)).Nodup := by
    rw [live_rows, ((List.perm_insertionSort _ _).map _).nodup_iff]
    refine List.Nodup.sublist (List.Sublist.map _ ?_) h
    refine List.monotone_filter_right _ fun r hr ↦ ?_
    rw [decide_eq_true_iff] at hr ⊢
    exact hr.1
  exact List.Pairwise.and (pairwise_sort _) (List.pairwise_map.1 hnodup)

/-- What a query sorts is what stands behind its cursor. -/
theorem sort_filter [Std.Antisymm le] (h : t.DistinctSeq cid) (p : UInt64 → Prop)
    [DecidablePred p] :
    ((t.messages.filter fun r ↦ r.session_id = cid ∧ p r.seq_id ∧ r.status ≠ .DELETED).insertionSort
      fun a b ↦ le a.seq_id b.seq_id) = (t.live_rows cid le).filter fun r ↦ p r.seq_id := by
  refine List.Perm.eq_of_pairwise ?_ (pairwise_sort _) ((pairwise_sort _).filter _) ?_
  · intro a b ha hb hab hba
    rw [List.mem_insertionSort, List.mem_filter, decide_eq_true_iff] at ha
    obtain ⟨hb, -⟩ := List.mem_filter.1 hb
    obtain ⟨hb, hcid, -⟩ := mem_live_rows.1 hb
    exact h.eq ha.1 hb ha.2.1 hcid (Std.Antisymm.antisymm _ _ hab hba)
  · refine (List.perm_insertionSort _ _).trans ?_
    refine List.Perm.trans ?_ ((List.perm_insertionSort _ _).symm.filter _)
    rw [List.filter_filter]
    refine List.Perm.of_eq (List.filter_congr fun r _ ↦ ?_)
    rw [← Bool.decide_and, decide_eq_decide]
    exact ⟨fun ⟨hcid, hp, hlive⟩ ↦ ⟨hp, hcid, hlive⟩, fun ⟨hp, hcid, hlive⟩ ↦ ⟨hcid, hp, hlive⟩⟩

end Sorted

/-- The live messages of a conversation, in an order of their numbers. -/
def live (t : ReadTables) (cid : String) (le : UInt64 → UInt64 → Prop) [DecidableRel le] :
    List Message :=
  (t.live_rows cid le).map convert_db_message_to_proto_

section Live

variable {le r : UInt64 → UInt64 → Prop} [DecidableRel le] [DecidableRel r]

theorem mem_beyond_live {k : UInt64} {m : Message} :
    m ∈ beyond (·.seq_id) r (t.live cid le) k ↔ t.HasLive cid m ∧ r k m.seq_id := by
  rw [mem_beyond, live, List.mem_map]
  refine and_congr_left fun _ ↦ ⟨?_, ?_⟩
  · rintro ⟨row, hrow, rfl⟩
    obtain ⟨hmem, hcid, hlive⟩ := mem_live_rows.1 hrow
    exact ⟨row, hmem, hcid, hlive, rfl⟩
  · rintro ⟨row, hmem, hcid, hlive, rfl⟩
    exact ⟨row, mem_live_rows.2 ⟨hmem, hcid, hlive⟩, rfl⟩

theorem beyond_live (k : UInt64) :
    beyond (·.seq_id) r (t.live cid le) k =
      ((t.live_rows cid le).filter fun row ↦ r k row.seq_id).map convert_db_message_to_proto_ := by
  rw [beyond, live, List.filter_map]
  rfl

end Live

/-! ### Down with `GetHistory` -/

/-- What `GetHistory` answers: the beginning of what stands below the cursor, and whether that is
all. -/
theorem GetHistory_eq (hmember : t.require_member_ {} cid uid = .ok ()) (h : t.DistinctSeq cid)
    {before_seq : UInt64} {limit : Int32} (hbefore : before_seq ≠ 0) (hlimit : InRange limit) :
    ((t.GetHistory {} uid { conversation_id := cid, before_seq, limit }).map
        fun rsp ↦ (rsp.messages, rsp.has_more)) =
      .ok ((beyond (·.seq_id) (· > ·) (t.live cid (· ≥ ·)) before_seq).take limit.toInt.toNat,
        decide (limit.toInt.toNat <
          (beyond (·.seq_id) (· > ·) (t.live cid (· ≥ ·)) before_seq).length)) := by
  have hrows : select_history t.messages cid before_seq (limit.toInt.toNat + 1) =
      ((t.live_rows cid (· ≥ ·)).filter fun r ↦ before_seq > r.seq_id).take
        (limit.toInt.toNat + 1) := by
    refine congrArg (List.take _) (Eq.trans ?_ (sort_filter h (before_seq > ·)))
    rfl
  have hcheck : check_limit limit kMaxLimit = .ok () := by
    obtain ⟨hpos, hmax⟩ := hlimit
    rw [check_limit, if_neg (by omega)]
  rw [beyond_live, List.length_map, ← List.map_take]
  simp only [GetHistory, hcheck, if_neg hbefore, hmember, hrows, bind, Except.bind, pure,
    Except.pure, Except.map, arriving_none, page_take]

/-- The smallest number received is that of the last message. -/
theorem min_seq_eq {page : List Message} {m : Message}
    (h : (page ++ [m]).Pairwise fun a b ↦ a.seq_id > b.seq_id) :
    ((page ++ [m]).map (·.seq_id)).min? = some m.seq_id := by
  rw [List.min?_eq_some_iff]
  refine ⟨List.mem_map_of_mem (by simp), fun k hk ↦ ?_⟩
  obtain ⟨a, ha, rfl⟩ := List.mem_map.1 hk
  rcases List.mem_append.1 ha with ha | ha
  · exact UInt64.le_of_lt ((List.pairwise_append.1 h).2.2 a ha m List.mem_cons_self)
  · rw [List.mem_singleton.1 ha]
    exact UInt64.le_refl _

theorem history_server (hmember : t.require_member_ {} cid uid = .ok ()) (h : t.DistinctSeq cid) :
    PageServer (t.live cid (· ≥ ·)) (· > ·) (· ≠ 0)
      (fun before_seq limit ↦
        (t.GetHistory {} uid { conversation_id := cid, before_seq, limit }).map
          fun rsp ↦ (rsp.messages, rsp.has_more))
      fun ms ↦ (ms.map (·.seq_id)).min? where
  sorted := by
    refine List.pairwise_map.2 ((pairwise_live_rows h).imp fun {a b} hab ↦ ?_)
    exact UInt64.lt_of_le_of_ne hab.1 (Ne.symm hab.2)
  accepts_of k k' hlt := by
    rintro rfl
    exact absurd hlt (UInt64.not_lt.2 UInt64.zero_le)
  asked _ _ hbefore hlimit := GetHistory_eq hmember h hbefore hlimit
  next_eq _ _ hsorted := min_seq_eq hsorted

/-! ### Up with `SyncMessages` -/

/-- What `SyncMessages` answers: the beginning of what stands above the cursor, and whether that is
all. -/
theorem SyncMessages_eq (hmember : t.require_member_ {} cid uid = .ok ()) (h : t.DistinctSeq cid)
    {after_seq : UInt64} {limit : Int32} (hlimit : InRange limit) :
    ((t.SyncMessages {} uid { conversation_id := cid, after_seq, limit }).map
        fun rsp ↦ (rsp.messages, rsp.has_more)) =
      .ok ((beyond (·.seq_id) (· < ·) (t.live cid (· ≤ ·)) after_seq).take limit.toInt.toNat,
        decide (limit.toInt.toNat <
          (beyond (·.seq_id) (· < ·) (t.live cid (· ≤ ·)) after_seq).length)) := by
  have hrows : select_after t.messages cid after_seq (limit.toInt.toNat + 1) =
      ((t.live_rows cid (· ≤ ·)).filter fun r ↦ after_seq < r.seq_id).take
        (limit.toInt.toNat + 1) := by
    refine congrArg (List.take _) (Eq.trans ?_ (sort_filter h (after_seq < ·)))
    rfl
  have hcheck : check_limit limit kMaxLimit = .ok () := by
    obtain ⟨hpos, hmax⟩ := hlimit
    rw [check_limit, if_neg (by omega)]
  rw [beyond_live, List.length_map, ← List.map_take]
  simp only [SyncMessages, hcheck, hmember, hrows, bind, Except.bind, pure, Except.pure,
    Except.map, arriving_none, page_take]

instance : Std.LawfulOrderMax UInt64 where
  max_eq_or a b := by
    show (if a ≤ b then b else a) = a ∨ (if a ≤ b then b else a) = b
    split
    · exact .inr rfl
    · exact .inl rfl
  max_le_iff a b c := by
    show (if a ≤ b then b else a) ≤ c ↔ _
    split
    · next hab => exact ⟨fun hbc ↦ ⟨UInt64.le_trans hab hbc, hbc⟩, And.right⟩
    · next hab =>
      have hba : b ≤ a := UInt64.le_of_lt (UInt64.not_le.1 hab)
      exact ⟨fun hac ↦ ⟨hac, UInt64.le_trans hba hac⟩, And.left⟩

/-- The greatest number received is that of the last message. -/
theorem max_seq_eq {page : List Message} {m : Message}
    (h : (page ++ [m]).Pairwise fun a b ↦ a.seq_id < b.seq_id) :
    ((page ++ [m]).map (·.seq_id)).max? = some m.seq_id := by
  rw [List.max?_eq_some_iff]
  refine ⟨List.mem_map_of_mem (by simp), fun k hk ↦ ?_⟩
  obtain ⟨a, ha, rfl⟩ := List.mem_map.1 hk
  rcases List.mem_append.1 ha with ha | ha
  · exact UInt64.le_of_lt ((List.pairwise_append.1 h).2.2 a ha m List.mem_cons_self)
  · rw [List.mem_singleton.1 ha]
    exact UInt64.le_refl _

theorem sync_server (hmember : t.require_member_ {} cid uid = .ok ()) (h : t.DistinctSeq cid) :
    PageServer (t.live cid (· ≤ ·)) (· < ·) (fun _ ↦ True)
      (fun after_seq limit ↦
        (t.SyncMessages {} uid { conversation_id := cid, after_seq, limit }).map
          fun rsp ↦ (rsp.messages, rsp.has_more))
      fun ms ↦ (ms.map (·.seq_id)).max? where
  sorted :=
    List.pairwise_map.2 ((pairwise_live_rows h).imp fun hab ↦ UInt64.lt_of_le_of_ne hab.1 hab.2)
  accepts_of _ _ _ := trivial
  asked _ _ _ hlimit := SyncMessages_eq hmember h hlimit
  next_eq _ _ hsorted := max_seq_eq hsorted

/-! ### Every message once -/

/-- The list has the live messages with a number behind the cursor, each once, in the order `r`. -/
structure Lists (t : ReadTables) (cid : String) (r : UInt64 → UInt64 → Prop) (cursor : UInt64)
    (all : List Message) : Prop where
  sorted : all.Pairwise fun a b ↦ r a.seq_id b.seq_id
  mem_iff : ∀ m, m ∈ all ↔ t.HasLive cid m ∧ r cursor m.seq_id

/-- **The pages of a walk partition what it walks through.** Downwards from a number the walk
delivers every live message below it once, in strictly descending order; upwards, every live message
above it, in ascending order. Nothing is below 0, which `GetHistory` refuses. -/
theorem pages_partition (t : ReadTables) (uid cid : String) (limits : List Int32)
    (hmember : t.require_member_ {} cid uid = .ok ()) (hdistinct : t.DistinctSeq cid)
    (hlimits : ∀ l ∈ limits, InRange l) :
    (∀ before_seq, ∃ all, t.Lists cid (· > ·) before_seq all ∧
      if before_seq = 0 then all = [] ∧ ∀ limit ∈ limits,
        t.GetHistory {} uid { conversation_id := cid, before_seq, limit } =
          .error ⟨error.kSystemInvalidArgument, "before_seq must > 0"⟩
      else ∃ ps, t.history_walk uid cid before_seq limits = .ok ps ∧
        Delivers all limits.length ps) ∧
    ∀ after_seq, ∃ all, t.Lists cid (· < ·) after_seq all ∧
      ∃ ps, t.sync_walk uid cid after_seq limits = .ok ps ∧ Delivers all limits.length ps := by
  have hdown := history_server hmember hdistinct
  have hup := sync_server hmember hdistinct
  refine ⟨fun before_seq ↦ ⟨_, ⟨pairwise_beyond hdown.sorted before_seq,
    fun m ↦ mem_beyond_live⟩, ?_⟩, fun after_seq ↦ ⟨_, ⟨pairwise_beyond hup.sorted after_seq,
    fun m ↦ mem_beyond_live⟩, hup.delivers trivial hlimits⟩⟩
  split
  · next hzero =>
    subst hzero
    refine ⟨List.eq_nil_iff_forall_not_mem.2 fun m hm ↦ ?_, fun limit hlimit ↦ ?_⟩
    · exact absurd (mem_beyond_live.1 hm).2 (UInt64.not_lt.2 UInt64.zero_le)
    · obtain ⟨hpos, hmax⟩ := hlimits limit hlimit
      rw [GetHistory, check_limit, if_neg (by dsimp only; omega)]
      rfl
  · next hbefore => exact hdown.delivers hbefore hlimits

/-- A conversation of four messages, of which the third is deleted. -/
def fourMessages : ReadTables where
  messages := [1, 2, 3, 4].map fun n ↦
    { message_id := n, seq_id := n, session_id := "c", user_id := "bob", message_type := 0,
      create_time := 0, content := "", client_msg_id := none, file_id := "", file_name := "",
      file_size := 0, status := if n = 3 then .DELETED else .NORMAL }
  members := ⟨[{ conversation_id := "c", user_id := "alice" }], by decide⟩

theorem inRange_two_one : ∀ l ∈ [(2 : Int32), 1], InRange l :=
  List.forall_mem_cons.2 ⟨⟨by decide, by decide⟩,
    List.forall_mem_singleton.2 ⟨by decide, by decide⟩⟩

/-- In pages of two and one, up and down. -/
theorem fourMessages_partition :
    (∀ before_seq, ∃ all, fourMessages.Lists "c" (· > ·) before_seq all ∧
      if before_seq = 0 then all = [] ∧ ∀ limit ∈ [(2 : Int32), 1],
        fourMessages.GetHistory {} "alice" { conversation_id := "c", before_seq, limit } =
          .error ⟨error.kSystemInvalidArgument, "before_seq must > 0"⟩
      else ∃ ps, fourMessages.history_walk "alice" "c" before_seq [2, 1] = .ok ps ∧
        Delivers all 2 ps) ∧
    ∀ after_seq, ∃ all, fourMessages.Lists "c" (· < ·) after_seq all ∧
      ∃ ps, fourMessages.sync_walk "alice" "c" after_seq [2, 1] = .ok ps ∧ Delivers all 2 ps :=
  pages_partition fourMessages "alice" "c" [2, 1] rfl (by decide) inRange_two_one

example : (fourMessages.history_walk "alice" "c" 9 [2, 1]).toOption.map
    (·.map fun p ↦ (p.1.map (·.seq_id), p.2)) = some [([4, 2], true), ([1], false)] :=
  rfl

end ReadTables

end ChatNow
