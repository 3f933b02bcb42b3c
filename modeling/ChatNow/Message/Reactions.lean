import ChatNow.Lib.Linear
import ChatNow.Message.Handlers
import ChatNow.Proto.Message
import Mathlib.Data.List.Sort
import Mathlib.Data.Set.Card

/-!
# Reactions

`AddReaction`, `RemoveReaction` and `GetReactions` of `message/source/message_server.h`, the table
of `mysql_message_reaction.hpp`, and how reactions are put together for a message, alone or with
others (`fill_reactions_for_messages_`).

A row is unique by message, user and emoji as MySQL compares them (`collate`). An id is given out
before its insert is committed, so rows do not become visible in the order of their ids. A query
that fails is answered by the rows that have arrived, which a caller cannot tell from all of them;
`reactions_linearizable` is about the runs in which none does.

* `fill_reactions_eq`: many messages at once get what each gets alone.
* `reactions_linearizable`: the calls are as if made one after the other.
-/

namespace ChatNow

open Prog Linear

/-! ### The table -/

/-- `MessageReaction`. -/
structure MessageReaction where
  id : ℕ
  message_id : UInt64
  user_id : String
  emoji : String
  deriving DecidableEq

/-- `uk_msg_user_emoji`. -/
def MessageReaction.key (collate : String → String) (r : MessageReaction) :
    UInt64 × String × String :=
  (r.message_id, collate r.user_id, collate r.emoji)

namespace MessageReaction

/-- `ORDER BY id ASC`. -/
def ById (r s : MessageReaction) : Prop := r.id ≤ s.id

/-- `ORDER BY message_id ASC, id ASC`. -/
def ByMessage (r s : MessageReaction) : Prop :=
  r.message_id < s.message_id ∨ r.message_id = s.message_id ∧ r.id ≤ s.id

instance : DecidableRel ById := fun r s ↦ inferInstanceAs (Decidable (r.id ≤ s.id))

instance : DecidableRel ByMessage := fun r s ↦ inferInstanceAs (Decidable
  (r.message_id < s.message_id ∨ r.message_id = s.message_id ∧ r.id ≤ s.id))

instance : Std.Total ById := ⟨fun r s ↦ Nat.le_total r.id s.id⟩

instance : IsTrans MessageReaction ById := ⟨fun _ _ _ ↦ Nat.le_trans⟩

instance : Std.Total ByMessage where
  total r s := by
    simp only [ByMessage, UInt64.lt_iff_toNat_lt, ← UInt64.toNat_inj]
    omega

instance : IsTrans MessageReaction ByMessage where
  trans r s t hrs hst := by
    simp only [ByMessage, UInt64.lt_iff_toNat_lt, ← UInt64.toNat_inj] at *
    omega

end MessageReaction

open MessageReaction

namespace MessageReactionTable

/-- `select_by_message`. -/
def select_by_message (rows : List MessageReaction) (mid : UInt64) : List MessageReaction :=
  (rows.filter (·.message_id = mid)).insertionSort ById

/-- `select_by_messages`. -/
def select_by_messages (rows : List MessageReaction) (mids : List UInt64) :
    List MessageReaction :=
  (rows.filter (·.message_id ∈ mids)).insertionSort ByMessage

end MessageReactionTable

open MessageReactionTable

/-! ### Groups -/

/-- `EmojiToUsers`. -/
abbrev EmojiToUsers := Std.TreeMap String (List String)

/-- `grouped[r.emoji].push_back(r.user_id)`. -/
def EmojiToUsers.push_back (grouped : EmojiToUsers) (r : MessageReaction) : EmojiToUsers :=
  grouped.alter r.emoji fun uids ↦ some (uids.getD [] ++ [r.user_id])

/-- The group of an emoji. -/
def reaction_group (caller_uid : String) (entry : String × List String) : ReactionGroup where
  emoji := entry.1
  count := Int32.ofNat entry.2.length
  recent_user_ids := entry.2.take 3
  self_reacted := entry.2.contains caller_uid

/-- The groups of a map, in its order. -/
def EmojiToUsers.groups (caller_uid : String) (grouped : EmojiToUsers) : List ReactionGroup :=
  grouped.toList.map (reaction_group caller_uid)

/-- The users of the rows by emoji. -/
def grouped_by_emoji (rows : List MessageReaction) : EmojiToUsers :=
  rows.foldl EmojiToUsers.push_back ∅

/-- What `GetReactions` makes of the rows that it finds. -/
def reaction_groups (caller_uid : String) (rows : List MessageReaction) : List ReactionGroup :=
  (grouped_by_emoji rows).groups caller_uid

/-- `grouped[r.message_id][r.emoji].push_back(r.user_id)`. -/
def push_back_by_message (grouped : Std.TreeMap UInt64 EmojiToUsers) (r : MessageReaction) :
    Std.TreeMap UInt64 EmojiToUsers :=
  grouped.alter r.message_id fun g ↦ some ((g.getD ∅).push_back r)

/-- `fill_reactions_for_messages_`. -/
def fill_reactions_for_messages_ (rows : List MessageReaction) (mids : List UInt64)
    (caller_uid : String) (msgs : List Message) : List Message :=
  if mids = [] then msgs
  else
    let grouped := (select_by_messages rows mids).foldl push_back_by_message ∅
    msgs.map fun m ↦
      match grouped[m.message_id.toUInt64]? with
      | none => m
      | some g => { m with reactions := m.reactions ++ g.groups caller_uid }

/-! ### What the groups show -/

/-- The groups show who has reacted to a message, by the rows of the table. -/
structure Shows (d : Set MessageReaction) (mid : UInt64) (caller_uid : String)
    (gs : List ReactionGroup) : Prop where
  sorted : gs.Pairwise (·.emoji < ·.emoji)
  emojis : ∀ e, (∃ g ∈ gs, g.emoji = e) ↔ ∃ r ∈ d, r.message_id = mid ∧ r.emoji = e
  /-- How many users there are. -/
  count : ∀ g ∈ gs, g.count =
    Int32.ofNat {u | ∃ r ∈ d, r.message_id = mid ∧ r.emoji = g.emoji ∧ r.user_id = u}.ncard
  self : ∀ g ∈ gs, g.self_reacted = true ↔
    ∃ r ∈ d, r.message_id = mid ∧ r.emoji = g.emoji ∧ r.user_id = caller_uid
  /-- Three of them are named, those with the lowest ids. -/
  recent : ∀ g ∈ gs, ∃ rs : List MessageReaction, rs.Pairwise (·.id < ·.id) ∧
    (∀ r, r ∈ rs ↔ r ∈ d ∧ r.message_id = mid ∧ r.emoji = g.emoji) ∧
    g.recent_user_ids = (rs.take 3).map (·.user_id)

section Groups

variable {rows : List MessageReaction} {e : String} {uids : List String}

/-- The rows of an emoji. -/
def of_emoji (rows : List MessageReaction) (e : String) : List MessageReaction :=
  rows.filter (·.emoji = e)

theorem grouped_by_emoji_concat (rows : List MessageReaction) (r : MessageReaction) :
    grouped_by_emoji (rows ++ [r]) = (grouped_by_emoji rows).push_back r := by
  rw [grouped_by_emoji, List.foldl_append]
  rfl

/-- The map has the users of each emoji that there is. -/
theorem getElem?_grouped_by_emoji (rows : List MessageReaction) (e : String) :
    (grouped_by_emoji rows)[e]? =
      if of_emoji rows e = [] then none else some ((of_emoji rows e).map (·.user_id)) := by
  induction rows using List.reverseRecOn with
  | nil => rfl
  | append_singleton rows r ih =>
    rw [grouped_by_emoji_concat, EmojiToUsers.push_back, Std.TreeMap.getElem?_alter, of_emoji,
      List.filter_append]
    by_cases he : r.emoji = e
    · subst he
      have hr : [r].filter (·.emoji = r.emoji) = [r] := by simp
      rw [if_pos (Std.compare_eq_iff_eq.2 rfl), ih, hr,
        if_neg (List.append_ne_nil_of_right_ne_nil _ (List.cons_ne_nil _ _)), List.map_append]
      by_cases hnil : of_emoji rows r.emoji = []
      · rw [if_pos hnil, show rows.filter (·.emoji = r.emoji) = [] from hnil]
        rfl
      · rw [if_neg hnil]
        rfl
    · have hr : [r].filter (·.emoji = e) = [] := by simp [he]
      rw [if_neg fun heq ↦ he (Std.compare_eq_iff_eq.1 heq), ih, hr, List.append_nil]
      rfl

/-- A message has the group of an emoji when a row has it. -/
theorem mem_toList_grouped_by_emoji :
    (e, uids) ∈ (grouped_by_emoji rows).toList ↔
      of_emoji rows e ≠ [] ∧ (of_emoji rows e).map (·.user_id) = uids := by
  rw [Std.TreeMap.mem_toList_iff_getElem?_eq_some, getElem?_grouped_by_emoji]
  split
  · next hnil => simp [hnil]
  · next hne => simp [hne]

/-- Many messages are grouped as each alone. -/
theorem getElem?_push_back_by_message (rows : List MessageReaction) (m : UInt64) :
    ((rows.foldl push_back_by_message ∅)[m]?).getD ∅ =
      grouped_by_emoji (rows.filter (·.message_id = m)) := by
  induction rows using List.reverseRecOn with
  | nil => rfl
  | append_singleton rows r ih =>
    rw [List.foldl_append, List.foldl_cons, List.foldl_nil, push_back_by_message,
      Std.TreeMap.getElem?_alter, List.filter_append]
    by_cases hm : r.message_id = m
    · subst hm
      have hr : [r].filter (·.message_id = r.message_id) = [r] := by simp
      rw [if_pos (Std.compare_eq_iff_eq.2 rfl), hr, grouped_by_emoji_concat, ← ih]
      rfl
    · have hr : [r].filter (·.message_id = m) = [] := by simp [hm]
      rw [if_neg fun heq ↦ hm (Std.compare_eq_iff_eq.1 heq), ih, hr, List.append_nil]

/-! ### Rows in order -/

/-- The ids of the rows are different. -/
abbrev IdsDiffer (rows : List MessageReaction) : Prop := (rows.map (·.id)).Nodup

/-- Rows in the order of their ids. -/
theorem pairwise_id_lt (hids : IdsDiffer rows) (hle : rows.Pairwise (·.id ≤ ·.id)) :
    rows.Pairwise (·.id < ·.id) :=
  (hle.and (List.pairwise_map.1 hids)).imp fun h ↦ Nat.lt_of_le_of_ne h.1 h.2

/-- Rows have one order by their ids. -/
theorem eq_of_perm {rows' : List MessageReaction} (hperm : rows.Perm rows')
    (h : rows.Pairwise (·.id < ·.id)) (h' : rows'.Pairwise (·.id < ·.id)) : rows = rows' :=
  hperm.eq_of_pairwise (fun _ _ _ _ hab hba ↦ absurd hab (Nat.lt_asymm hba)) h h'

theorem idsDiffer_filter (hids : IdsDiffer rows) (P : MessageReaction → Bool) :
    IdsDiffer (rows.filter P) :=
  (List.filter_sublist.map _).nodup hids

theorem idsDiffer_perm {rows' : List MessageReaction} (hids : IdsDiffer rows)
    (hperm : rows.Perm rows') : IdsDiffer rows' :=
  (hperm.map _).nodup_iff.1 hids

/-- `select_by_message` gives the rows in the order of their ids. -/
theorem pairwise_select_by_message (hids : IdsDiffer rows) (mid : UInt64) :
    (select_by_message rows mid).Pairwise (·.id < ·.id) := by
  exact pairwise_id_lt (idsDiffer_perm (idsDiffer_filter hids _)
    (List.perm_insertionSort _ _).symm) (List.pairwise_insertionSort _ _)

/-- What `select_by_messages` gives of a message is what `select_by_message` gives of it. -/
theorem filter_select_by_messages (hids : IdsDiffer rows) {mids : List UInt64} {m : UInt64}
    (hm : m ∈ mids) :
    (select_by_messages rows mids).filter (·.message_id = m) = select_by_message rows m := by
  have hperm : ((select_by_messages rows mids).filter (·.message_id = m)).Perm
      (rows.filter (·.message_id = m)) := by
    refine ((List.perm_insertionSort _ _).filter _).trans (List.Perm.of_eq ?_)
    rw [List.filter_filter]
    refine List.filter_congr fun r _ ↦ ?_
    by_cases hr : r.message_id = m
    · simp [hr, hm]
    · simp [hr]
  refine eq_of_perm (hperm.trans (List.perm_insertionSort _ _).symm) ?_
    (pairwise_select_by_message hids m)
  refine pairwise_id_lt (idsDiffer_perm (idsDiffer_filter hids _) hperm.symm) ?_
  have hle : (select_by_messages rows mids).Pairwise ByMessage := List.pairwise_insertionSort _ _
  refine (hle.filter _).imp_of_mem fun {r s} hr hs hrs ↦ ?_
  have hr : r.message_id = m := of_decide_eq_true (List.mem_filter.1 hr).2
  have hs : s.message_id = m := of_decide_eq_true (List.mem_filter.1 hs).2
  rcases hrs with hlt | ⟨-, hle⟩
  · rw [hr, hs] at hlt
    exact absurd hlt (UInt64.lt_irrefl m)
  · exact hle

/-- **Many messages at once get what each gets alone**: the groups that `GetReactions` would show to
the same caller. -/
theorem fill_reactions_eq (rows : List MessageReaction) (hids : IdsDiffer rows)
    (caller_uid : String) (msgs : List Message) :
    fill_reactions_for_messages_ rows (msgs.map (·.message_id.toUInt64)) caller_uid msgs =
      msgs.map fun m ↦ { m with
        reactions := m.reactions ++
          reaction_groups caller_uid (select_by_message rows m.message_id.toUInt64) } := by
  rw [fill_reactions_for_messages_]
  split
  · next hnil =>
    obtain rfl := List.map_eq_nil_iff.1 hnil
    rfl
  · refine List.map_congr_left fun m hm ↦ ?_
    have hmid : m.message_id.toUInt64 ∈ msgs.map (·.message_id.toUInt64) :=
      List.mem_map_of_mem hm
    have hgrouped := getElem?_push_back_by_message
      (select_by_messages rows (msgs.map (·.message_id.toUInt64))) m.message_id.toUInt64
    rw [filter_select_by_messages hids hmid] at hgrouped
    rw [reaction_groups, ← hgrouped]
    split
    · next hnone =>
      rw [hnone]
      exact (congrArg (fun l ↦ { m with reactions := l }) (List.append_nil m.reactions)).symm
    · next g hsome =>
      rw [hsome]
      rfl

/-- Two messages, one of them without reactions. -/
theorem fill_reactions_eq_two :
    fill_reactions_for_messages_ [⟨7, 1, "carol", "+1"⟩, ⟨5, 1, "alice", "+1"⟩] [1, 2] "alice"
        [{ message_id := 1 }, { message_id := 2 }] =
      [{ message_id := 1, reactions := [⟨"+1", 2, ["alice", "carol"], true⟩] },
        { message_id := 2 }] := by
  have h := fill_reactions_eq [⟨7, 1, "carol", "+1"⟩, ⟨5, 1, "alice", "+1"⟩]
    (by decide) "alice" [{ message_id := 1 }, { message_id := 2 }]
  exact h.trans (by decide +kernel)

theorem mem_select_by_message {mid : UInt64} {r : MessageReaction} :
    r ∈ select_by_message rows mid ↔ r ∈ rows ∧ r.message_id = mid := by
  rw [select_by_message, List.mem_insertionSort, List.mem_filter, decide_eq_true_iff]

theorem mem_of_emoji {r : MessageReaction} : r ∈ of_emoji rows e ↔ r ∈ rows ∧ r.emoji = e := by
  rw [of_emoji, List.mem_filter, decide_eq_true_iff]

/-- Nobody stands twice in a group. -/
theorem nodup_group {collate : String → String} (hkeys : (rows.map (·.key collate)).Nodup)
    (mid : UInt64) (e : String) :
    ((of_emoji (select_by_message rows mid) e).map (·.user_id)).Nodup := by
  have hgroup : ((of_emoji (select_by_message rows mid) e).map (·.key collate)).Nodup := by
    refine (List.filter_sublist.map _).nodup ?_
    refine ((List.perm_insertionSort _ _).map _).nodup_iff.2 ?_
    exact (List.filter_sublist.map _).nodup hkeys
  refine List.Nodup.of_map (fun u ↦ (mid, collate u, collate e)) ?_
  rw [List.map_map]
  refine (List.map_congr_left fun r hr ↦ ?_) ▸ hgroup
  obtain ⟨hr, he⟩ := mem_of_emoji.1 hr
  rw [MessageReaction.key, (mem_select_by_message.1 hr).2, he]
  rfl

/-- **What the groups of a message show**, of the rows of the table. -/
theorem shows_reaction_groups {collate : String → String} (hids : IdsDiffer rows)
    (hkeys : (rows.map (·.key collate)).Nodup) (mid : UInt64) (caller_uid : String) :
    Shows {r | r ∈ rows} mid caller_uid
      (reaction_groups caller_uid (select_by_message rows mid)) := by
  -- a group is that of an emoji that some row has
  have hgroup : ∀ g ∈ reaction_groups caller_uid (select_by_message rows mid),
      of_emoji (select_by_message rows mid) g.emoji ≠ [] ∧
        g = reaction_group caller_uid
          (g.emoji, (of_emoji (select_by_message rows mid) g.emoji).map (·.user_id)) := by
    intro g hg
    obtain ⟨⟨e, uids⟩, hmem, rfl⟩ := List.mem_map.1 hg
    obtain ⟨hne, rfl⟩ := mem_toList_grouped_by_emoji.1 hmem
    exact ⟨hne, rfl⟩
  have hrow : ∀ e r, r ∈ of_emoji (select_by_message rows mid) e ↔
      r ∈ rows ∧ r.message_id = mid ∧ r.emoji = e := by
    intro e r
    rw [mem_of_emoji, mem_select_by_message, and_assoc]
  have huser : ∀ e u, u ∈ (of_emoji (select_by_message rows mid) e).map (·.user_id) ↔
      ∃ r ∈ rows, r.message_id = mid ∧ r.emoji = e ∧ r.user_id = u := by
    intro e u
    rw [List.mem_map]
    constructor
    · rintro ⟨r, hr, hu⟩
      obtain ⟨hr, hm, he⟩ := (hrow e r).1 hr
      exact ⟨r, hr, hm, he, hu⟩
    · rintro ⟨r, hr, hm, he, hu⟩
      exact ⟨r, (hrow e r).2 ⟨hr, hm, he⟩, hu⟩
  exact {
    sorted := by
      refine List.pairwise_map.2 (Std.TreeMap.ordered_keys_toList.imp fun h ↦ ?_)
      exact compareOfLessAndEq_eq_lt.1 h
    emojis e := by
      constructor
      · rintro ⟨g, hg, rfl⟩
        obtain ⟨r, hr⟩ := List.exists_mem_of_ne_nil _ (hgroup g hg).1
        exact ⟨r, (hrow _ r).1 hr⟩
      · rintro ⟨r, hr⟩
        have hmem : r ∈ of_emoji (select_by_message rows mid) e := (hrow e r).2 hr
        exact ⟨_, List.mem_map_of_mem (mem_toList_grouped_by_emoji.2
          ⟨List.ne_nil_of_mem hmem, rfl⟩), rfl⟩
    count g hg := by
      rw [(hgroup g hg).2]
      have hset : {u | ∃ r ∈ rows, r.message_id = mid ∧ r.emoji = g.emoji ∧ r.user_id = u} =
          ((of_emoji (select_by_message rows mid) g.emoji).map (·.user_id)).toFinset := by
        ext u
        rw [List.coe_toFinset]
        exact (huser g.emoji u).symm
      exact congrArg Int32.ofNat (by
        rw [← List.toFinset_card_of_nodup (nodup_group hkeys mid g.emoji), ← Set.ncard_coe_finset,
          ← hset]
        rfl)
    self g hg := by
      rw [(hgroup g hg).2]
      exact List.contains_iff_mem.trans (huser g.emoji caller_uid)
    recent g hg := by
      refine ⟨of_emoji (select_by_message rows mid) g.emoji, ?_, hrow g.emoji, ?_⟩
      · exact (pairwise_select_by_message hids mid).filter _
      · rw [(hgroup g hg).2]
        exact List.map_take.symm }

end Groups

/-! ### The text -/

/-- `AddReactionReq`, `RemoveReactionReq`. -/
structure ReactionReq where
  message_id : Int64
  emoji : String
  deriving DecidableEq

/-- What an RPC answers beside its header. -/
inductive ReactionRsp
  | empty
  | groups (gs : List ReactionGroup)
  deriving DecidableEq

/-- `REACTION_CHANGED_NOTIFY`, for a user. -/
structure ReactionChanged where
  target_uid : String
  conversation_id : String
  message_id : Int64
  actor_user_id : String
  emoji : String
  added : Bool
  deriving DecidableEq

/-- The operations of the three requests. -/
inductive ReactionOp
  /-- `select_by_id`; a query that fails answers as if there were no row. -/
  | selectById (mid : UInt64)
  /-- `ConversationMemberTable::select_self`. -/
  | selectSelf (cid uid : String)
  /-- `MessageReactionTable::insert`; a row that is there already is a success. -/
  | insertReaction (mid : UInt64) (uid emoji : String)
  /-- `MessageReactionTable::remove`; a row that is not there is a success. -/
  | removeReaction (mid : UInt64) (uid emoji : String)
  /-- `select_by_message`; a query that fails answers the rows that have arrived. -/
  | selectByMessage (mid : UInt64)
  /-- `PushToUser` is called, and the answer is not waited for. -/
  | pushToUser (n : ReactionChanged)
  /-- The response is sent. -/
  | respond (rsp : Except ServiceError ReactionRsp)

/-- What each operation answers. -/
@[reducible]
def ReactionOp.Res : ReactionOp → Type
  | selectById _ => Option MessageRow
  | selectSelf _ _ => Option ConversationMember
  | insertReaction _ _ _ => Bool
  | removeReaction _ _ _ => Bool
  | selectByMessage _ => List MessageReaction
  | pushToUser _ => Unit
  | respond _ => Unit

/-- Programs of the message service. -/
abbrev ReactionM := Prog ReactionOp ReactionOp.Res

namespace ReactionService

open ReactionOp

/-- `kMaxEmojiBytes`. -/
def kMaxEmojiBytes : ℕ := 16

/-- `require_member_`. -/
def require_member_ (cid uid : String) : ReactionM (Except ServiceError Unit) := do
  if uid = MessageService.kSystemUserId then return .ok ()
  else
    match ← op (selectSelf cid uid) with
    | none => return .error not_member
    | some self => return if self.is_quit then .error not_member else .ok ()

/-- What the requests look at first: the message, of a conversation of the caller. -/
def message_for_ (mid : UInt64) (uid : String) : ReactionM (Except ServiceError MessageRow) := do
  match ← op (selectById mid) with
  | none => return .error ⟨error.kMessageNotFound, "mid"⟩
  | some msg =>
    match ← require_member_ msg.session_id uid with
    | .error e => return .error e
    | .ok () => return .ok msg

/-- `publish_reaction_notify_`. -/
def publish_reaction_notify_ (n : ReactionChanged) : ReactionM Unit := do
  if n.target_uid = n.actor_user_id then return ()
  else op (pushToUser n)

/-- The body of `AddReaction`, for a caller that is logged in. -/
def add_reaction (uid : String) (req : ReactionReq) :
    ReactionM (Except ServiceError ReactionRsp) := do
  if req.emoji = "" ∨ kMaxEmojiBytes < req.emoji.utf8ByteSize then
    return .error ⟨error.kMessageContentInvalid, "emoji length invalid"⟩
  match ← message_for_ req.message_id.toUInt64 uid with
  | .error e => return .error e
  | .ok msg =>
    if ← op (insertReaction req.message_id.toUInt64 uid req.emoji) then
      publish_reaction_notify_ ⟨msg.user_id, msg.session_id, req.message_id, uid, req.emoji, true⟩
      return .ok .empty
    else return .error ⟨error.kSystemInternalError, "reaction insert failed"⟩

/-- The body of `RemoveReaction`, for a caller that is logged in. Nobody is told. -/
def remove_reaction (uid : String) (req : ReactionReq) :
    ReactionM (Except ServiceError ReactionRsp) := do
  if req.emoji = "" ∨ kMaxEmojiBytes < req.emoji.utf8ByteSize then
    return .error ⟨error.kMessageContentInvalid, "emoji"⟩
  match ← message_for_ req.message_id.toUInt64 uid with
  | .error e => return .error e
  | .ok _ =>
    if ← op (removeReaction req.message_id.toUInt64 uid req.emoji) then return .ok .empty
    else return .error ⟨error.kSystemInternalError, "remove failed"⟩

/-- The body of `GetReactions`, for a caller that is logged in. -/
def get_reactions (uid : String) (message_id : Int64) :
    ReactionM (Except ServiceError ReactionRsp) := do
  match ← message_for_ message_id.toUInt64 uid with
  | .error e => return .error e
  | .ok _ =>
    let rows ← op (selectByMessage message_id.toUInt64)
    return .ok (.groups (reaction_groups uid rows))

end ReactionService

/-- A call. -/
inductive ReactionCall
  | adds (uid : String) (req : ReactionReq)
  | removes (uid : String) (req : ReactionReq)
  | gets (uid : String) (message_id : Int64)
  deriving DecidableEq

namespace ReactionCall

open ReactionService

/-- The body of a call. -/
def body : ReactionCall → ReactionM (Except ServiceError ReactionRsp)
  | adds uid req => add_reaction uid req
  | removes uid req => remove_reaction uid req
  | gets uid message_id => get_reactions uid message_id

/-- What a call does. -/
def text (c : ReactionCall) : ReactionM Unit := do
  let rsp ← c.body
  op (ReactionOp.respond rsp)

/-- What a call answers that has found the rows. -/
def answer (c : ReactionCall) (rows : List MessageReaction) : ReactionRsp :=
  match c with
  | gets uid _ => .groups (reaction_groups uid rows)
  | _ => .empty

end ReactionCall

/-! ### The machine -/

section Machine

variable (collate : String → String)

/-- The tables, and what has happened. -/
structure ReactionState where
  /-- `message`. -/
  messages : Table MessageRow.message_id := .empty
  /-- `message_reaction`. -/
  reactions : Table (MessageReaction.key collate) := .empty
  /-- The calls, by thread. -/
  calls : List ReactionCall := []
  /-- When they began, took effect, and were answered without an error. -/
  history : List (Moment ReactionCall ReactionRsp) := []

/-- What the environment decides at a call. -/
structure ReactionChoice where
  /-- The call fails. -/
  fault : Bool := false
  /-- Its effect takes place all the same. -/
  late : Bool := false
  /-- How many rows of a query that fails have arrived. -/
  arrived : ℕ := 0
  /-- The id of a new row. -/
  id : ℕ := 0
  /-- What is found of the caller's membership. -/
  self : Option ConversationMember := none

/-- The effect of the call takes place. -/
def ReactionChoice.acts (c : ReactionChoice) : Bool := !c.fault || c.late

theorem ReactionChoice.fault_of_not_acts {c : ReactionChoice} (h : ¬c.acts = true) :
    c.fault = true := by
  by_contra hfault
  exact h (by rw [acts, Bool.eq_false_iff.2 hfault]; rfl)

namespace ReactionState

variable {collate} (s : ReactionState collate)

/-- Thread `i` takes effect, with an answer. -/
def took (i : ℕ) (rows : List MessageReaction) (reactions : Table (MessageReaction.key collate)) :
    ReactionState collate :=
  match s.calls[i]? with
  | none => { s with reactions }
  | some c => { s with reactions, history := s.history ++ [.effect i c (c.answer rows)] }

/-- The effect of a call by thread `i`. -/
def exec (i : ℕ) : (o : ReactionOp) → ReactionChoice → ReactionState collate →
    Option (o.Res × ReactionState collate)
  | .selectById mid, c, s => some (if c.fault then none else s.messages.find mid, s)
  | .selectSelf _ _, c, s => some (c.self, s)
  | .insertReaction mid uid emoji, c, s =>
    if s.reactions.rows.any (·.id = c.id) then none
    else some (!c.fault, if c.acts then
      s.took i [] ((s.reactions.insert ⟨c.id, mid, uid, emoji⟩).getD s.reactions) else s)
  | .removeReaction mid uid emoji, c, s =>
    some (!c.fault, if c.acts then
      s.took i [] (s.reactions.erase (mid, collate uid, collate emoji)) else s)
  | .selectByMessage mid, c, s =>
    let rows := select_by_message s.reactions.rows mid
    if c.fault then some (rows.take c.arrived, s) else some (rows, s.took i rows s.reactions)
  | .pushToUser _, _, s => some ((), s)
  | .respond (.ok rsp), _, s => some ((), { s with history := s.history ++ [.returned i rsp] })
  | .respond (.error _), _, s => some ((), s)

end ReactionState

/-- What can happen beside the calls. -/
inductive ReactionEv
  /-- A request arrives. -/
  | arrive (c : ReactionCall)
  /-- A message is stored. -/
  | store (m : MessageRow)
  /-- A thread is gone. -/
  | crash (i : ℕ)

abbrev ReactionPool := Pool ReactionOp ReactionOp.Res (ReactionState collate)

variable {collate}

/-- The effect of an event. -/
def ReactionState.env : ReactionEv → ReactionPool collate → Option (ReactionPool collate)
  | .arrive c, p => some ⟨p.threads ++ [c.text], { p.shared with
      calls := p.shared.calls ++ [c]
      history := p.shared.history ++ [.invoked p.shared.calls.length c] }⟩
  | .store m, p =>
    (p.shared.messages.insert m).map fun messages ↦ ⟨p.threads, { p.shared with messages }⟩
  | .crash i, p => some ⟨p.threads.set i (.ret ()), p.shared⟩

variable (collate)

/-- The part of the message service that is about reactions. -/
def reactionService :
    Machine ReactionOp ReactionOp.Res (ReactionState collate) ReactionChoice ReactionEv :=
  ⟨ReactionState.exec, ReactionState.env⟩

/-- No query of the reactions of a message fails. -/
def reactionsRead : Machine.Guard ReactionOp ReactionOp.Res (ReactionState collate) ReactionChoice
    ReactionEv where
  onOp _ o c _ :=
    match o with
    | .selectByMessage _ => c.fault = false
    | _ => True
  onEv _ _ := True

/-! ### One call after the other -/

/-- The user has reacted with the emoji, as far as MySQL tells emojis apart. -/
def Reacted (d : Set MessageReaction) (uid : String) (req : ReactionReq) : Prop :=
  ∃ r ∈ d, r.key collate = (req.message_id.toUInt64, collate uid, collate req.emoji)

/-- What the calls do to the rows when they are made one after the other, and what they answer. -/
inductive Reacts : ReactionCall → Set MessageReaction → ReactionRsp → Set MessageReaction → Prop
  | again {d : Set MessageReaction} {uid : String} {req : ReactionReq}
      (h : Reacted collate d uid req) : Reacts (.adds uid req) d .empty d
  | adds {d : Set MessageReaction} {uid : String} {req : ReactionReq} {id : ℕ}
      (h : ¬ Reacted collate d uid req) (hid : ∀ r ∈ d, r.id ≠ id) :
      Reacts (.adds uid req) d .empty (insert ⟨id, req.message_id.toUInt64, uid, req.emoji⟩ d)
  | removes {d : Set MessageReaction} {uid : String} {req : ReactionReq} :
      Reacts (.removes uid req) d .empty
        {r ∈ d | r.key collate ≠ (req.message_id.toUInt64, collate uid, collate req.emoji)}
  | gets {d : Set MessageReaction} {uid : String} {message_id : Int64} {gs : List ReactionGroup}
      (h : Shows d message_id.toUInt64 uid gs) :
      Reacts (.gets uid message_id) d (.groups gs) d

end Machine

/-! ### The contract -/

/-- How far a call has come. -/
inductive ReactionPhase
  /-- It has not come to its query or its transaction. -/
  | idle
  /-- It has taken effect, with the answer. -/
  | took (rsp : ReactionRsp)
  /-- Its transaction has failed. -/
  | failed

/-- A call, and how far it has come. -/
structure ReactionThread where
  call : ReactionCall
  phase : ReactionPhase := .idle

/-- What a call may do. -/
def reactionContract : Contract ReactionOp ReactionOp.Res ReactionThread where
  allowed t o :=
    match o with
    | .insertReaction mid uid emoji => ∃ req, t = ⟨.adds uid req, .idle⟩ ∧
        mid = req.message_id.toUInt64 ∧ emoji = req.emoji
    | .removeReaction mid uid emoji => ∃ req, t = ⟨.removes uid req, .idle⟩ ∧
        mid = req.message_id.toUInt64 ∧ emoji = req.emoji
    | .selectByMessage mid => ∃ uid message_id, t = ⟨.gets uid message_id, .idle⟩ ∧
        mid = message_id.toUInt64
    | .respond (.ok rsp) => t.phase = .took rsp
    | _ => True
  admits _ _ _ := True
  next t o r :=
    match o, r with
    | .insertReaction _ _ _, ok => { t with phase := if ok then .took .empty else .failed }
    | .removeReaction _ _ _, ok => { t with phase := if ok then .took .empty else .failed }
    | .selectByMessage _, rows => { t with phase := .took (t.call.answer rows) }
    | _, _ => t

section Meets

open ReactionService

variable {cid uid : String} {t : ReactionThread}

theorem membership_meets :
    (ReactionService.require_member_ cid uid).Meets reactionContract t fun t' _ ↦ t' = t := by
  rw [ReactionService.require_member_]
  split
  · rfl
  · refine meets_op_bind.2 ⟨trivial, fun self _ ↦ ?_⟩
    cases self <;> rfl

theorem message_for_meets {mid : UInt64} :
    (message_for_ mid uid).Meets reactionContract t fun t' _ ↦ t' = t := by
  refine meets_op_bind.2 ⟨trivial, fun msg _ ↦ ?_⟩
  cases msg with
  | none => rfl
  | some msg =>
    refine membership_meets.bind fun t' r ht ↦ ?_
    obtain rfl := ht
    cases r <;> rfl

theorem publish_reaction_notify_meets {n : ReactionChanged} :
    (publish_reaction_notify_ n).Meets reactionContract t fun t' _ ↦ t' = t := by
  rw [publish_reaction_notify_]
  split
  · rfl
  · exact ⟨trivial, fun _ _ ↦ rfl⟩

/-- A body answers without an error only when it has taken effect. -/
theorem body_meets (c : ReactionCall) : c.body.Meets reactionContract ⟨c, .idle⟩ fun t rsp ↦
    ∀ r, rsp = .ok r → t.phase = .took r := by
  cases c with
  | adds uid req =>
    show (add_reaction uid req).Meets _ _ _
    rw [add_reaction]
    split
    · rintro r ⟨⟩
    · refine message_for_meets.bind fun t' msg ht ↦ ?_
      obtain rfl := ht
      cases msg with
      | error e => rintro r ⟨⟩
      | ok msg =>
        refine meets_op_bind.2 ⟨⟨req, rfl, rfl, rfl⟩, fun ok _ ↦ ?_⟩
        cases ok with
        | false => rintro r ⟨⟩
        | true =>
          refine publish_reaction_notify_meets.bind fun t' _ ht ↦ ?_
          obtain rfl := ht
          rintro r ⟨⟩
          rfl
  | removes uid req =>
    show (remove_reaction uid req).Meets _ _ _
    rw [remove_reaction]
    split
    · rintro r ⟨⟩
    · refine message_for_meets.bind fun t' msg ht ↦ ?_
      obtain rfl := ht
      cases msg with
      | error e => rintro r ⟨⟩
      | ok msg =>
        refine meets_op_bind.2 ⟨⟨req, rfl, rfl, rfl⟩, fun ok _ ↦ ?_⟩
        cases ok with
        | false => rintro r ⟨⟩
        | true =>
          rintro r ⟨⟩
          rfl
  | gets uid message_id =>
    show (get_reactions uid message_id).Meets _ _ _
    refine message_for_meets.bind fun t' msg ht ↦ ?_
    obtain rfl := ht
    cases msg with
    | error e => rintro r ⟨⟩
    | ok msg =>
      refine meets_op_bind.2 ⟨⟨uid, message_id, rfl, rfl⟩, fun rows _ ↦ ?_⟩
      rintro r ⟨⟩
      rfl

theorem text_meets (c : ReactionCall) :
    c.text.Meets reactionContract ⟨c, .idle⟩ fun _ _ ↦ True := by
  refine (body_meets c).bind fun t rsp ht ↦ meets_op_bind.2 ⟨?_, fun _ _ ↦ trivial⟩
  cases rsp with
  | error e => trivial
  | ok r => exact ht r rfl

end Meets

/-! ### The invariant -/

section Invariant

variable {collate : String → String}

/-- The rows of the table. -/
def ReactionState.rows (s : ReactionState collate) : Set MessageReaction :=
  {r | r ∈ s.reactions.rows}

/-- The calls are atomic. -/
structure ReactionInv (d₀ : Set MessageReaction) (ts : List ReactionThread)
    (s : ReactionState collate) : Prop where
  calls : s.calls = ts.map (·.call)
  ids : IdsDiffer s.reactions.rows
  atomic : Atomic (Reacts collate) d₀ s.history s.rows
  begun : ∀ (i : ℕ) t, ts[i]? = some t → .invoked i t.call ∈ s.history
  numbered : ∀ i c, .invoked i c ∈ s.history → i < ts.length
  idle : ∀ (i : ℕ) t, ts[i]? = some t → t.phase = .idle → ∀ c r, .effect i c r ∉ s.history
  took : ∀ (i : ℕ) t r, ts[i]? = some t → t.phase = .took r → .effect i t.call r ∈ s.history

variable {d₀ : Set MessageReaction} {ts : List ReactionThread} {s s' : ReactionState collate}
  {i : ℕ} {t : ReactionThread} {phase : ReactionPhase}

/-- A step that leaves the table and the history. -/
theorem ReactionInv.quiet (h : ReactionInv d₀ ts s) (hi : ts[i]? = some t)
    (hphase : phase = t.phase ∨ phase = .failed) :
    ReactionInv d₀ (ts.set i { t with phase }) s where
  calls := by
    rw [h.calls]
    exact (Pool.map_set_eq (u := { t with phase }) (f := ReactionThread.call) hi rfl).symm
  ids := h.ids
  atomic := h.atomic
  begun j u hu := by
    rcases Pool.getElem?_set_cases hu with ⟨rfl, rfl⟩ | ⟨-, hu⟩
    · exact h.begun _ t hi
    · exact h.begun _ _ hu
  numbered j c hc := by
    rw [List.length_set]
    exact h.numbered j c hc
  idle j u hu hidle := by
    rcases Pool.getElem?_set_cases hu with ⟨rfl, rfl⟩ | ⟨-, hu⟩
    · rcases hphase with heq | heq
      · exact h.idle _ _ hi (heq.symm.trans hidle)
      · cases heq.symm.trans hidle
    · exact h.idle _ _ hu hidle
  took j u r hu htook := by
    rcases Pool.getElem?_set_cases hu with ⟨rfl, rfl⟩ | ⟨-, hu⟩
    · rcases hphase with heq | heq
      · exact h.took _ t r hi (heq.symm.trans htook)
      · cases heq.symm.trans htook
    · exact h.took _ _ r hu htook

/-- A thread takes effect. -/
theorem ReactionInv.takes (h : ReactionInv d₀ ts s) (hi : ts[i]? = some t)
    (hidle : t.phase = .idle) {found : List MessageReaction}
    {reactions : Table (MessageReaction.key collate)} (hids : IdsDiffer reactions.rows)
    (hstep : Reacts collate t.call s.rows (t.call.answer found) {r | r ∈ reactions.rows})
    (hphase : phase = .failed ∨ phase = .took (t.call.answer found)) :
    ReactionInv d₀ (ts.set i { t with phase }) (s.took i found reactions) := by
  have hcall : s.calls[i]? = some t.call := by
    rw [h.calls, List.getElem?_map, hi]
    rfl
  have hs' : s.took i found reactions = { s with
      reactions
      history := s.history ++ [.effect i t.call (t.call.answer found)] } := by
    rw [ReactionState.took, hcall]
  rw [hs']
  exact {
    calls := by
      rw [h.calls]
      exact (Pool.map_set_eq (u := { t with phase }) (f := ReactionThread.call) hi rfl).symm
    ids := hids
    atomic := h.atomic.effect (h.begun i t hi) (h.idle i t hi hidle) hstep
    begun j u hu := by
      rcases Pool.getElem?_set_cases hu with ⟨rfl, rfl⟩ | ⟨-, hu⟩
      · exact List.mem_append_left _ (h.begun _ t hi)
      · exact List.mem_append_left _ (h.begun _ _ hu)
    numbered j c hc := by
      rw [List.length_set]
      rcases List.mem_append.1 hc with hold | hnew
      · exact h.numbered j c hold
      · cases List.mem_singleton.1 hnew
    idle j u hu hidle' c r hmem := by
      rcases Pool.getElem?_set_cases hu with ⟨rfl, rfl⟩ | ⟨hne, hu⟩
      · rcases hphase with heq | heq <;> cases heq.symm.trans hidle'
      · rcases List.mem_append.1 hmem with hold | hnew
        · exact h.idle _ _ hu hidle' c r hold
        · exact hne (Moment.effect.inj (List.mem_singleton.1 hnew)).1
    took j u r hu htook := by
      rcases Pool.getElem?_set_cases hu with ⟨rfl, rfl⟩ | ⟨-, hu⟩
      · rcases hphase with heq | heq
        · cases heq.symm.trans htook
        · obtain rfl := ReactionPhase.took.inj (heq.symm.trans htook)
          exact List.mem_append_right _ (List.mem_singleton_self _)
      · exact List.mem_append_left _ (h.took _ _ r hu htook) }

/-- A response is sent. -/
theorem ReactionInv.responds (h : ReactionInv d₀ ts s) (hi : ts[i]? = some t) {r : ReactionRsp}
    (htook : t.phase = .took r) :
    ReactionInv d₀ (ts.set i t) { s with history := s.history ++ [.returned i r] } := by
  have hsame : ts.set i t = ts := by
    obtain ⟨hlt, rfl⟩ := List.getElem?_eq_some_iff.1 hi
    exact List.set_getElem_self hlt
  rw [hsame]
  exact {
    calls := h.calls
    ids := h.ids
    atomic := h.atomic.returned (h.took i t r hi htook)
    begun j u hu := List.mem_append_left _ (h.begun j u hu)
    numbered j c hc := by
      rcases List.mem_append.1 hc with hold | hnew
      · exact h.numbered j c hold
      · cases List.mem_singleton.1 hnew
    idle j u hu hidle c r' hmem := by
      rcases List.mem_append.1 hmem with hold | hnew
      · exact h.idle j u hu hidle c r' hold
      · cases List.mem_singleton.1 hnew
    took j u r' hu htook' := List.mem_append_left _ (h.took j u r' hu htook') }

/-- The insert, as a step of the reactions. -/
theorem reacts_insert (uid : String) (req : ReactionReq) (hids : IdsDiffer s.reactions.rows)
    {id : ℕ} (hid : s.reactions.rows.any (·.id = id) = false) :
    IdsDiffer ((s.reactions.insert
        ⟨id, req.message_id.toUInt64, uid, req.emoji⟩).getD s.reactions).rows ∧
      Reacts collate (.adds uid req) s.rows .empty {r | r ∈ ((s.reactions.insert
        ⟨id, req.message_id.toUInt64, uid, req.emoji⟩).getD s.reactions).rows} := by
  have hne : ∀ r ∈ s.reactions.rows, r.id ≠ id := by
    intro r hr
    exact of_decide_eq_false (Bool.eq_false_iff.2 fun htrue ↦
      Bool.eq_false_iff.1 hid (List.any_eq_true.2 ⟨r, hr, htrue⟩))
  cases hins : s.reactions.insert ⟨id, req.message_id.toUInt64, uid, req.emoji⟩ with
  | none =>
    refine ⟨hids, .again ?_⟩
    have hfind := mt Table.insert_isSome.2 (by rw [hins]; exact Bool.false_ne_true)
    obtain ⟨r, hr⟩ := Option.ne_none_iff_exists'.1 hfind
    exact ⟨r, Table.mem_of_find hr, Table.key_of_find hr⟩
  | some reactions =>
    obtain ⟨hnone, hrows⟩ := Table.rows_of_insert hins
    rw [Option.getD_some, hrows]
    constructor
    · rw [IdsDiffer, List.map_append, List.nodup_append]
      refine ⟨hids, List.nodup_singleton _, ?_⟩
      intro n hn m hm
      obtain ⟨r, hr, rfl⟩ := List.mem_map.1 hn
      rw [List.mem_singleton.1 hm]
      exact hne r hr
    · have hset : {r | r ∈ s.reactions.rows ++
          [(⟨id, req.message_id.toUInt64, uid, req.emoji⟩ : MessageReaction)]} =
          insert ⟨id, req.message_id.toUInt64, uid, req.emoji⟩ s.rows := by
        ext r
        exact List.mem_append.trans ((or_congr_right List.mem_singleton).trans or_comm)
      rw [hset]
      refine .adds ?_ hne
      rintro ⟨r, hr, hkey⟩
      exact (Table.find_eq_none _).1 hnone r hr hkey

/-- The erase, as a step of the reactions. -/
theorem reacts_erase (uid : String) (req : ReactionReq) :
    Reacts collate (.removes uid req) s.rows .empty {r | r ∈ (s.reactions.erase
      (req.message_id.toUInt64, collate uid, collate req.emoji)).rows} := by
  have hset : {r | r ∈ (s.reactions.erase
      (req.message_id.toUInt64, collate uid, collate req.emoji)).rows} = {r ∈ s.rows |
        r.key collate ≠ (req.message_id.toUInt64, collate uid, collate req.emoji)} := by
    ext r
    exact List.mem_filter.trans (and_congr_right' decide_eq_true_iff)
  rw [hset]
  exact .removes

/-- **Every call of a thread** keeps the calls atomic. -/
theorem reactionInv_call {o : ReactionOp} {c : ReactionChoice} {r : o.Res}
    (h : ReactionInv d₀ ts s) (hi : ts[i]? = some t) (ha : reactionContract.allowed t o)
    (hG : (reactionsRead collate).onOp i o c s) (hx : s.exec i o c = some (r, s')) :
    ReactionInv d₀ (ts.set i (reactionContract.next t o r)) s' := by
  cases o with
  | selectById mid | selectSelf cid uid | pushToUser n =>
    obtain ⟨-, rfl⟩ := Prod.mk.inj (Option.some.inj hx)
    exact h.quiet hi (.inl rfl)
  | insertReaction mid uid emoji =>
    obtain ⟨req, rfl, rfl, rfl⟩ := ha
    simp only [ReactionState.exec] at hx
    split at hx
    · cases hx
    · next hid =>
      obtain ⟨rfl, rfl⟩ := Prod.mk.inj (Option.some.inj hx)
      have hreacts := reacts_insert uid req h.ids (Bool.eq_false_iff.2 hid)
      split
      · refine h.takes hi rfl hreacts.1 hreacts.2 ?_
        cases c.fault with
        | true => exact .inl rfl
        | false => exact .inr rfl
      · next hacts =>
        refine h.quiet hi (.inr ?_)
        show ite _ _ _ = _
        rw [ReactionChoice.fault_of_not_acts hacts]
        rfl
  | removeReaction mid uid emoji =>
    obtain ⟨req, rfl, rfl, rfl⟩ := ha
    obtain ⟨rfl, rfl⟩ := Prod.mk.inj (Option.some.inj hx)
    split
    · refine h.takes hi rfl (idsDiffer_filter h.ids _) (reacts_erase uid req) ?_
      cases c.fault with
      | true => exact .inl rfl
      | false => exact .inr rfl
    · next hacts =>
      refine h.quiet hi (.inr ?_)
      show ite _ _ _ = _
      rw [ReactionChoice.fault_of_not_acts hacts]
      rfl
  | selectByMessage mid =>
    obtain ⟨uid, message_id, rfl, rfl⟩ := ha
    simp only [ReactionState.exec] at hx
    rw [if_neg (by rw [show c.fault = false from hG]; exact Bool.false_ne_true)] at hx
    obtain ⟨rfl, rfl⟩ := Prod.mk.inj (Option.some.inj hx)
    refine h.takes hi rfl h.ids (.gets ?_) (.inr rfl)
    exact shows_reaction_groups h.ids s.reactions.unique message_id.toUInt64 uid
  | respond rsp =>
    cases rsp with
    | error e =>
      obtain ⟨-, rfl⟩ := Prod.mk.inj (Option.some.inj hx)
      exact h.quiet hi (.inl rfl)
    | ok rsp =>
      obtain ⟨-, rfl⟩ := Prod.mk.inj (Option.some.inj hx)
      exact h.responds hi ha

/-- A request arrives. -/
theorem ReactionInv.arrives (h : ReactionInv d₀ ts s) (c : ReactionCall) :
    ReactionInv d₀ (ts ++ [⟨c, .idle⟩]) { s with
      calls := s.calls ++ [c]
      history := s.history ++ [.invoked s.calls.length c] } := by
  have hlen : s.calls.length = ts.length := by rw [h.calls, List.length_map]
  rw [hlen]
  exact {
    calls := by
      rw [h.calls, List.map_append]
      rfl
    ids := h.ids
    atomic := h.atomic.invoked fun b hmem ↦ absurd (h.numbered _ b hmem) (Nat.lt_irrefl _)
    begun i u hu := by
      rcases Pool.getElem?_append_cases hu with ⟨rfl, rfl⟩ | ⟨-, hu⟩
      · exact List.mem_append_right _ (List.mem_singleton_self _)
      · exact List.mem_append_left _ (h.begun i u hu)
    numbered i b hb := by
      rw [List.length_append, List.length_singleton]
      rcases List.mem_append.1 hb with hold | hnew
      · exact Nat.lt_succ_of_lt (h.numbered i b hold)
      · rw [(Moment.invoked.inj (List.mem_singleton.1 hnew)).1]
        exact Nat.lt_succ_self _
    idle i u hu hidle b r hmem := by
      rcases List.mem_append.1 hmem with hold | hnew
      · rcases Pool.getElem?_append_cases hu with ⟨rfl, rfl⟩ | ⟨-, hu⟩
        · exact absurd (h.numbered _ b (h.atomic.begun hold)) (Nat.lt_irrefl _)
        · exact h.idle i u hu hidle b r hold
      · cases List.mem_singleton.1 hnew
    took i u r hu htook := by
      rcases Pool.getElem?_append_cases hu with ⟨rfl, rfl⟩ | ⟨-, hu⟩
      · cases htook
      · exact List.mem_append_left _ (h.took i u r hu htook) }

theorem reactionInv_event {p p' : ReactionPool collate} {e : ReactionEv}
    (h : ReactionInv d₀ ts p.shared) (hm : p.Meets reactionContract (fun _ ↦ True) ts)
    (hx : ReactionState.env e p = some p') :
    ∃ ts', ReactionInv d₀ ts' p'.shared ∧ p'.Meets reactionContract (fun _ ↦ True) ts' := by
  cases e with
  | arrive c =>
    obtain rfl := Option.some.inj hx
    exact ⟨_, h.arrives c, hm.spawn (text_meets c) _⟩
  | store m =>
    obtain ⟨messages, -, rfl⟩ := Option.map_eq_some_iff.1 hx
    exact ⟨ts, ⟨h.calls, h.ids, h.atomic, h.begun, h.numbered, h.idle, h.took⟩, hm⟩
  | crash i =>
    obtain rfl := Option.some.inj hx
    exact ⟨ts, h, hm.stop (fun _ ↦ trivial) i _⟩

end Invariant

/-- No call has begun. -/
structure ReactionState.Fresh {collate : String → String} (s : ReactionState collate) : Prop where
  ids : IdsDiffer s.reactions.rows
  calls : s.calls = []
  history : s.history = []

/-- **The reactions are linearizable.** In every run in which no query of reactions fails, the calls
can be put into one order that respects real time, in which each call that has been answered without
an error has answered what it answers when they are made one after the other; and this leaves the
rows of the table. A call that fails has its place in it when its transaction was committed all the
same. -/
theorem reactions_linearizable (collate : String → String) (s₀ : ReactionState collate)
    (hs : s₀.Fresh) (p : ReactionPool collate)
    (hr : (reactionService collate).Reach (reactionsRead collate) ⟨[], s₀⟩ p) :
    ∃ order, Linearizable (Reacts collate) s₀.rows p.shared.history order p.shared.rows := by
  have h₀ : ReactionInv s₀.rows [] s₀ := by
    refine ⟨hs.calls, hs.ids, ?_, ?_, ?_, ?_, ?_⟩
    · rw [hs.history]
      exact .nil
    · exact fun i t ht ↦ by cases ht
    · rw [hs.history]
      exact fun i c hc ↦ by cases hc
    · exact fun i t ht ↦ by cases ht
    · exact fun i t r ht ↦ by cases ht
  obtain ⟨ts, h, -⟩ : ∃ ts, ReactionInv s₀.rows ts p.shared ∧
      p.Meets reactionContract (fun _ ↦ True) ts := by
    refine Machine.invariant hr ⟨[], h₀, .nil⟩ ?_ ?_
    · intro ts s i t o c r s' h hi ha hG hx
      exact ⟨trivial, reactionInv_call h hi ha hG hx⟩
    · intro ts p e p' h hm _ hx
      exact reactionInv_event h hm hx
  exact ⟨_, h.atomic.linearizable⟩

instance (collate : String → String) (i : ℕ) (o : ReactionOp) (c : ReactionChoice)
    (s : ReactionState collate) : Decidable ((reactionsRead collate).onOp i o c s) :=
  match o with
  | .selectByMessage _ => inferInstanceAs (Decidable (c.fault = false))
  | .selectById _ => .isTrue trivial
  | .selectSelf _ _ => .isTrue trivial
  | .insertReaction _ _ _ => .isTrue trivial
  | .removeReaction _ _ _ => .isTrue trivial
  | .pushToUser _ => .isTrue trivial
  | .respond _ => .isTrue trivial

instance (collate : String → String) (e : ReactionEv) (p : ReactionPool collate) :
    Decidable ((reactionsRead collate).onEv e p) := .isTrue trivial

/-- A message of bob to the team. -/
def bobsMessage : MessageRow where
  message_id := 1
  seq_id := 1
  session_id := "team"
  user_id := "bob"
  message_type := 0
  create_time := 0
  content := "hi"
  client_msg_id := none
  file_id := ""
  file_name := ""
  file_size := 0
  status := .NORMAL

/-- Carol has reacted to it. -/
def carolReacted : ReactionState id where
  messages := ⟨[bobsMessage], by decide⟩
  reactions := ⟨[⟨7, 1, "carol", "+1"⟩], by decide⟩

/-- A member of the team. -/
def inTeam (uid : String) : ReactionChoice where
  self := some { conversation_id := "team", user_id := uid, role := .NORMAL }

/-- Bob looks at the reactions, while alice reacts in the same way: her row has a lower id. -/
def aliceReacts : List (Machine.Label ReactionChoice ReactionEv) :=
  [.event (.arrive (.gets "bob" 1)), .event (.arrive (.adds "alice" ⟨1, "+1"⟩)),
    .call 0 {}, .call 0 (inTeam "bob"), .call 1 {}, .call 1 (inTeam "alice"), .call 1 { id := 5 },
    .call 0 {}, .call 0 {}, .call 1 {}, .call 1 {}]

/-- Bob sees both. -/
theorem reactions_linearizable_bob :
    carolReacted.Fresh ∧ ∃ p,
      (reactionService id).Reach (reactionsRead id) ⟨[], carolReacted⟩ p ∧
      .returned 0 (.groups [⟨"+1", 2, ["alice", "carol"], false⟩]) ∈ p.shared.history ∧
      ∃ order, Linearizable (Reacts id) carolReacted.rows p.shared.history order p.shared.rows := by
  have hfresh : carolReacted.Fresh := ⟨by decide, rfl, rfl⟩
  obtain ⟨p, hp, hseen⟩ := Machine.exists_of_run (reactionService id) (reactionsRead id)
    ⟨[], carolReacted⟩ aliceReacts
    (fun p ↦ .returned 0 (.groups [⟨"+1", 2, ["alice", "carol"], false⟩]) ∈ p.shared.history)
    (by decide +kernel)
  exact ⟨hfresh, p, hp, hseen, reactions_linearizable id carolReacted hfresh p hp⟩

end ChatNow
