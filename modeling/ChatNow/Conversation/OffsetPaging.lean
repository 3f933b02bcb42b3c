import ChatNow.Conversation.Views
import ChatNow.Lib.MachineInt
import ChatNow.Lib.Paging
import ChatNow.Presence.Aggregator
import Mathlib.Data.Finset.Basic

/-!
# Paging by offset

`ListMembers` of the conversation service, and `ListBlockedUsers` of the relationship service, which
is paged alike. A client sends the text of an offset and a limit, and gets the entries from there on
with a flag that says whether there are more. The numbers are `int`s: a sum that runs over and an
iterator that leaves its vector are undefined behaviour, which is an outcome of its own here
(`RpcFault.undefined`).

The tables answer; the identity service may not. A conversation has its rows in some order, and a
query by ids may give them in another one.

## Main results

* `offset_paging_exact`: which requests get the page that they ask for.
-/

namespace ChatNow

open MachineInt Paging Presence

/-! ### Messages -/

/-- `PageRequest`. -/
structure PageRequest where
  limit : Int32 := 0
  cursor : String := ""
  deriving DecidableEq

/-- `PageResponse`. -/
structure PageResponse where
  has_more : Bool := false
  next_cursor : String := ""
  total_count : ℤ := 0
  deriving DecidableEq

/-- `UserInfo`. -/
structure common.UserInfo where
  user_id : String := ""
  nickname : String := ""
  bio : String := ""
  phone : String := ""
  avatar_url : String := ""
  deriving DecidableEq

/-- `MemberItem`. -/
structure conversation.MemberItem where
  user_info : common.UserInfo
  role : conversation.MemberRole
  join_time_ms : ℤ
  deriving DecidableEq

/-- `ListMembersRsp`. -/
structure conversation.ListMembersRsp where
  members : List conversation.MemberItem := []
  page : PageResponse := {}
  deriving DecidableEq

/-- `ListBlockedRsp`. -/
structure relationship.ListBlockedRsp where
  blocked_list : List common.UserInfo := []
  page : PageResponse := {}
  deriving DecidableEq

/-- How a handler ends without a page. -/
inductive RpcFault
  /-- Nothing is said of what the process does. -/
  | undefined
  /-- The error is the answer. -/
  | error (e : ServiceError)
  deriving DecidableEq

/-- `+` of two `int`s. -/
def int_add (x y : ℤ) : Except RpcFault ℤ :=
  match checkedAdd 32 x y with
  | some sum => .ok sum
  | none => .error .undefined

/-- `std::vector::assign` with two places of another vector. -/
def assign (uids : List String) (first last : ℤ) : Except RpcFault (List String) :=
  if 0 ≤ first ∧ first ≤ last ∧ last ≤ uids.length then
    .ok ((uids.drop first.toNat).take (last - first).toNat)
  else .error .undefined

/-! ### `ListMembers` -/

/-- What `ListMembers` finds for a conversation. -/
structure MembersView where
  rows : List ConversationMember
  /-- `uk_conv_user`. -/
  nodup : (rows.map (·.user_id)).Nodup
  /-- The query by ids. -/
  query : List String → List ConversationMember
  query_perm : ∀ uids, (query uids).Perm (rows.filter fun m ↦ m.user_id ∈ uids)
  /-- The identity service; it may not answer. -/
  get_multi_user_info : List String → Option (String → Option common.UserInfo)

namespace MembersView

variable (v : MembersView)

/-- `require_member_`. -/
def require_member_ (uid : String) : Bool := v.rows.any fun m ↦ m.user_id = uid && !m.is_quit

/-- `ConversationMemberTable::members`. -/
def members : List String := (v.rows.filter fun m ↦ !m.is_quit).map (·.user_id)

/-- `ConversationMemberTable::select`. -/
def select (uids : List String) : List ConversationMember := if uids = [] then [] else v.query uids

/-- `fetch_user_infos_`. Its result is not looked at, only what it has put into the map. -/
def fetch_user_infos_ (uids : List String) : String → Option common.UserInfo :=
  if uids = [] then fun _ ↦ none else (v.get_multi_user_info uids).getD fun _ ↦ none

end MembersView

/-- The item of a member. -/
def member_item (umap : String → Option common.UserInfo) (m : ConversationMember) :
    conversation.MemberItem where
  user_info := (umap m.user_id).getD { user_id := m.user_id }
  role := m.role.toProto
  join_time_ms := m.join_time

/-- The `limit` of `ListMembers`. -/
def members_limit (page : PageRequest) : ℤ :=
  let limit := if page.limit.toInt > 0 then page.limit.toInt else 50
  if limit > 200 then 200 else limit

/-- The `start` of `ListMembers`. What `stoi` throws is answered as an internal error. -/
def members_start (page : PageRequest) : Except RpcFault ℤ :=
  if page.cursor ≠ "" then
    match stoi page.cursor with
    | .ok n => .ok (max 0 n)
    | .error _ => .error (.error internal_error)
  else .ok 0

/-- The `total`, the `page_uids` and the flag of `ListMembers`. -/
def members_page (uids : List String) (start limit : ℤ) :
    Except RpcFault (ℤ × List String × Bool) :=
  let total := wrap 32 uids.length
  match int_add start limit with
  | .error fault => .error fault
  | .ok sum =>
    let last := min sum total
    if start < total then
      match assign uids start last with
      | .error fault => .error fault
      | .ok page_uids => .ok (total, page_uids, last < total)
    else .ok (total, [], last < total)

/-- `ListMembers`. -/
def ListMembers (v : MembersView) (auth_uid : String) (page : PageRequest) :
    Except RpcFault conversation.ListMembersRsp :=
  if !v.require_member_ auth_uid then
    .error (.error ⟨error.kConversationNotMember, "not a member"⟩)
  else do
    let start ← members_start page
    let (total, page_uids, has_more) ← members_page v.members start (members_limit page)
    let umap := v.fetch_user_infos_ page_uids
    return {
      members := ((v.select page_uids).filter fun m ↦ !m.is_quit).map (member_item umap)
      page := { has_more := has_more, total_count := total } }

/-! ### `ListBlockedUsers` -/

/-- What `ListBlockedUsers` finds for the caller. -/
structure BlockedView where
  /-- Whom the caller has blocked, the latest first. -/
  blocked : List String
  /-- The identity service; it may not answer. -/
  fetch_users : Finset String → Option (String → Option common.UserInfo)

namespace BlockedView

variable (v : BlockedView)

/-- `UserBlockTable::list_blocked`. -/
def list_blocked (offset limit : ℤ) : List String :=
  if limit ≤ 0 then []
  else (v.blocked.drop (if offset < 0 then 0 else offset).toNat).take limit.toNat

/-- `UserBlockTable::count_blocked`, which counts in 64 bits. -/
def count_blocked : Except RpcFault ℤ :=
  if v.blocked.length < 2 ^ 63 then .ok v.blocked.length else .error .undefined

end BlockedView

/-- The `limit` of `ListBlockedUsers`. -/
def blocked_limit (page : PageRequest) : ℤ :=
  if page.limit.toInt > 0 then page.limit.toInt else 50

/-- The `offset` of `ListBlockedUsers`. -/
def blocked_offset (page : PageRequest) : ℤ :=
  if page.cursor ≠ "" then
    match stoi page.cursor with
    | .ok n => n
    | .error _ => 0
  else 0

/-- The `user_map` of `ListBlockedUsers`. -/
def blocked_users (v : BlockedView) (blocked_ids : List String) :
    Except RpcFault (String → Option common.UserInfo) :=
  if blocked_ids.toFinset = ∅ then .ok fun _ ↦ none
  else
    match v.fetch_users blocked_ids.toFinset with
    | some user_map => .ok user_map
    | none => .error (.error ⟨error.kSystemUnavailable, "identity service unavailable"⟩)

/-- `ListBlockedUsers`. -/
def ListBlockedUsers (v : BlockedView) (page : PageRequest) :
    Except RpcFault relationship.ListBlockedRsp := do
  let limit := blocked_limit page
  let offset := blocked_offset page
  let blocked_ids := v.list_blocked offset limit
  let user_map ← blocked_users v blocked_ids
  let total ← v.count_blocked
  let next ← int_add offset limit
  return {
    blocked_list := blocked_ids.filterMap user_map
    page := {
      total_count := wrap 32 total
      has_more := next < total
      next_cursor := if next < total then toString next else "" } }

/-! ### What is asked for -/

/-- The place that a cursor stands for: the beginning, if it is no number or a negative one. -/
def PageRequest.position (page : PageRequest) : ℕ :=
  match stoi page.cursor with
  | .ok n => n.toNat
  | .error _ => 0

/-- The answer is the page of the members: some order of the rows of those that stand there, and the
right flag. -/
def ExactMembers (v : MembersView) (page : PageRequest)
    (out : Except RpcFault conversation.ListMembersRsp) : Prop :=
  ∃ rsp uids rows, out = .ok rsp ∧
    IsOffsetPage v.members page.position (members_limit page).toNat uids rsp.page.has_more ∧
    rows ⊆ v.rows ∧ (rows.map (·.user_id)).Perm uids ∧
    rsp.members = rows.map (member_item (v.fetch_user_infos_ uids))

/-- The answer is the page of the blocked users, as far as the identity service knows them, and the
right flag. -/
def ExactBlocked (v : BlockedView) (page : PageRequest)
    (out : Except RpcFault relationship.ListBlockedRsp) : Prop :=
  ∃ rsp uids user_map, out = .ok rsp ∧
    IsOffsetPage v.blocked page.position (blocked_limit page).toNat uids rsp.page.has_more ∧
    blocked_users v uids = .ok user_map ∧ rsp.blocked_list = uids.filterMap user_map

/-- The cursor is empty or a number, the end of the page is an `int`, and so is the number of
members, or else the page ends before what is taken for it. -/
structure MembersView.Pageable (v : MembersView) (page : PageRequest) : Prop where
  cursor : page.cursor = "" ∨ ∃ n, stoi page.cursor = .ok n
  fits : Fits 32 (page.position + members_limit page)
  total : v.members.length < 2 ^ 31 ∨
    page.position + members_limit page < wrap 32 v.members.length

/-- The end of the page is an `int`, and the offset is not negative, or else the flag does not
depend on it. -/
structure BlockedView.Pageable (v : BlockedView) (page : PageRequest) : Prop where
  fits : Fits 32 (blocked_offset page + blocked_limit page)
  total : v.blocked.length < 2 ^ 63
  offset : 0 ≤ blocked_offset page ∨
    v.blocked.length ≤ blocked_offset page + blocked_limit page ∨
    blocked_limit page < v.blocked.length

/-! ### Integers -/

theorem int_add_of_fits {x y : ℤ} (h : Fits 32 (x + y)) : int_add x y = .ok (x + y) := by
  rw [int_add, checkedAdd, if_pos h]

theorem int_add_of_not_fits {x y : ℤ} (h : ¬ Fits 32 (x + y)) :
    int_add x y = .error .undefined := by
  rw [int_add, checkedAdd, if_neg h]

theorem assign_of_le {uids : List String} {first last : ℤ} (hfirst : 0 ≤ first)
    (hle : first ≤ last) (hlast : last ≤ uids.length) :
    assign uids first last = .ok ((uids.drop first.toNat).take (last - first).toNat) :=
  if_pos ⟨hfirst, hle, hlast⟩

theorem members_limit_pos (page : PageRequest) : 0 < members_limit page := by
  unfold members_limit
  dsimp only
  split <;> split <;> omega

theorem blocked_limit_pos (page : PageRequest) : 0 < blocked_limit page := by
  unfold blocked_limit
  split <;> omega

theorem fits_int_iff {x : ℤ} : Fits 32 x ↔ -2147483648 ≤ x ∧ x < 2147483648 := Iff.rfl

theorem wrap_int_lt (x : ℤ) : wrap 32 x < 2147483648 := wrap_lt (by decide) x

/-- The number of entries is taken for itself if it is an `int`. -/
theorem wrap_length_eq_iff (uids : List String) :
    wrap 32 uids.length = uids.length ↔ uids.length < 2 ^ 31 := by
  constructor
  · intro h
    have hlt := wrap_int_lt uids.length
    omega
  · intro h
    exact wrap_of_fits (by decide) (fits_int_iff.2 (by omega))

/-- Else it is taken for less. -/
theorem wrap_length_le (uids : List String) : wrap 32 uids.length ≤ uids.length := by
  by_cases h : uids.length < 2 ^ 31
  · exact ((wrap_length_eq_iff uids).2 h).le
  · have hlt := wrap_int_lt uids.length
    omega

/-! ### The page of the members -/

section Members

variable {v : MembersView} {page : PageRequest} {auth_uid : String}

/-- The vector is left alone where the sum is an `int`. -/
theorem members_page_of_fits {uids : List String} {start limit : ℕ}
    (h : Fits 32 ((start : ℤ) + limit)) :
    members_page uids start limit = .ok (wrap 32 uids.length,
      if (start : ℤ) < wrap 32 uids.length then
        (uids.drop start).take (min ((start : ℤ) + limit) (wrap 32 uids.length) - start).toNat
      else [],
      decide (min ((start : ℤ) + limit) (wrap 32 uids.length) < wrap 32 uids.length)) := by
  have htotal : wrap 32 uids.length ≤ uids.length := wrap_length_le uids
  rw [members_page, int_add_of_fits h]
  dsimp only
  by_cases hstart : (start : ℤ) < wrap 32 uids.length
  · rw [if_pos hstart, if_pos hstart, assign_of_le (by omega) (by omega) (by omega),
      Int.toNat_natCast]
  · rw [if_neg hstart, if_neg hstart]

theorem stoi_empty : stoi "" = .error .invalid_argument := by rfl

theorem position_of_empty (h : page.cursor = "") : page.position = 0 := by
  rw [PageRequest.position, h, stoi_empty]

theorem members_start_of_readable (h : page.cursor = "" ∨ ∃ n, stoi page.cursor = .ok n) :
    members_start page = .ok page.position := by
  by_cases hempty : page.cursor = ""
  · rw [members_start, if_neg (not_not.2 hempty), position_of_empty hempty]
    rfl
  · obtain ⟨n, hn⟩ := h.resolve_left hempty
    rw [members_start, if_pos hempty, PageRequest.position, hn]
    dsimp only
    exact congrArg Except.ok (by omega)

theorem members_start_of_unreadable (h : ¬(page.cursor = "" ∨ ∃ n, stoi page.cursor = .ok n)) :
    members_start page = .error (.error internal_error) := by
  rw [not_or] at h
  rw [members_start, if_pos h.1]
  cases hstoi : stoi page.cursor with
  | ok n => exact absurd ⟨n, hstoi⟩ h.2
  | error e => rfl

namespace MembersView

theorem nodup_members : v.members.Nodup :=
  v.nodup.sublist (List.filter_sublist.map _)

/-- The rows of active members, told by their ids. -/
theorem select_of_sublist {uids : List String} (h : uids.Sublist v.members) :
    ((v.select uids).filter fun m ↦ !m.is_quit) ⊆ v.rows ∧
      (((v.select uids).filter fun m ↦ !m.is_quit).map (·.user_id)).Perm uids := by
  have hselect : (v.select uids).Perm (v.rows.filter fun m ↦ m.user_id ∈ uids) := by
    by_cases hnil : uids = []
    · subst hnil
      simp [select]
    · rw [select, if_neg hnil]
      exact v.query_perm uids
  refine ⟨?_, ?_⟩
  · intro m hm
    exact List.mem_of_mem_filter (hselect.mem_iff.1 (List.mem_of_mem_filter hm))
  · have hnodup : (((v.select uids).filter fun m ↦ !m.is_quit).map (·.user_id)).Nodup := by
      rw [((hselect.filter _).map _).nodup_iff]
      exact v.nodup.sublist ((List.filter_sublist.trans List.filter_sublist).map _)
    rw [List.perm_ext_iff_of_nodup hnodup (v.nodup_members.sublist h)]
    intro uid
    rw [((hselect.filter _).map _).mem_iff, List.filter_filter]
    constructor
    · intro hmem
      obtain ⟨m, hm, rfl⟩ := List.mem_map.1 hmem
      have hboth := (List.mem_filter.1 hm).2
      rw [Bool.and_eq_true, decide_eq_true_iff] at hboth
      exact hboth.2
    · intro huid
      obtain ⟨m, hm, rfl⟩ := List.mem_map.1 (h.subset huid)
      obtain ⟨hrow, hactive⟩ := List.mem_filter.1 hm
      refine List.mem_map_of_mem (List.mem_filter.2 ⟨hrow, ?_⟩)
      rw [Bool.and_eq_true, decide_eq_true_iff]
      exact ⟨hactive, huid⟩

end MembersView

section Member

variable (hmember : v.require_member_ auth_uid = true)
include hmember

theorem ListMembers_of_unreadable (h : ¬(page.cursor = "" ∨ ∃ n, stoi page.cursor = .ok n)) :
    ListMembers v auth_uid page = .error (.error internal_error) := by
  rw [ListMembers, hmember, members_start_of_unreadable h]
  rfl

theorem ListMembers_of_fault {fault : RpcFault}
    (hcursor : page.cursor = "" ∨ ∃ n, stoi page.cursor = .ok n)
    (h : members_page v.members page.position (members_limit page) = .error fault) :
    ListMembers v auth_uid page = .error fault := by
  rw [ListMembers, hmember, members_start_of_readable hcursor]
  show (members_page v.members page.position (members_limit page) >>= _) = _
  rw [h]
  rfl

theorem ListMembers_of_page {total : ℤ} {page_uids : List String} {has_more : Bool}
    (hcursor : page.cursor = "" ∨ ∃ n, stoi page.cursor = .ok n)
    (h : members_page v.members page.position (members_limit page) =
      .ok (total, page_uids, has_more)) :
    ListMembers v auth_uid page = .ok {
      members := ((v.select page_uids).filter fun m ↦ !m.is_quit).map
        (member_item (v.fetch_user_infos_ page_uids))
      page := { has_more := has_more, total_count := total } } := by
  rw [ListMembers, hmember, members_start_of_readable hcursor]
  show (members_page v.members page.position (members_limit page) >>= _) = _
  rw [h]
  rfl

/-- **The requests of a member that are answered with their page.** -/
theorem exactMembers_iff : ExactMembers v page (ListMembers v auth_uid page) ↔ v.Pageable page := by
  obtain ⟨limit, hlimit⟩ := Int.eq_ofNat_of_zero_le (members_limit_pos page).le
  by_cases hcursor : page.cursor = "" ∨ ∃ n, stoi page.cursor = .ok n
  · by_cases hfits : Fits 32 ((page.position : ℤ) + limit)
    · have hpage : members_page v.members page.position limit = _ := members_page_of_fits hfits
      have htotal : wrap 32 v.members.length ≤ v.members.length := wrap_length_le v.members
      have hlong : wrap 32 v.members.length ≠ v.members.length →
          page.position + limit < v.members.length := by
        intro hne
        have hsum := (fits_int_iff.1 hfits).2
        have hbig := mt (wrap_length_eq_iff v.members).2 hne
        omega
      have hpageable : v.Pageable page ↔ wrap 32 v.members.length = v.members.length ∨
          (page.position : ℤ) + limit < wrap 32 v.members.length := by
        rw [wrap_length_eq_iff, ← hlimit]
        exact ⟨fun h ↦ h.total, fun h ↦ ⟨hcursor, hlimit ▸ hfits, h⟩⟩
      rw [hpageable, ExactMembers, hlimit, Int.toNat_natCast]
      rw [← hlimit] at hpage
      rw [ListMembers_of_page hmember hcursor hpage, hlimit]
      -- Nothing else is used of what is taken for the number of the members.
      generalize wrap 32 v.members.length = total at htotal hlong ⊢
      constructor
      · rintro ⟨rsp, uids, rows, hout, hpage, -⟩
        obtain rfl := Except.ok.inj hout
        have hflag := hpage.more_iff
        rw [decide_eq_true_iff] at hflag
        exact (cut_flag_iff htotal hlong).1 hflag
      · intro h
        have hpage := isOffsetPage_cut htotal h
        obtain ⟨hsub, hperm⟩ := v.select_of_sublist hpage.sublist
        exact ⟨_, _, _, rfl, hpage, hsub, hperm, rfl⟩
    · refine iff_of_false ?_ fun h ↦ hfits (hlimit ▸ h.fits)
      have hfault : members_page v.members page.position (members_limit page) =
          .error .undefined := by
        rw [members_page, hlimit, int_add_of_not_fits hfits]
      rw [ListMembers_of_fault hmember hcursor hfault]
      rintro ⟨rsp, uids, rows, hout, -⟩
      cases hout
  · rw [ListMembers_of_unreadable hmember hcursor]
    refine iff_of_false ?_ fun h ↦ hcursor h.cursor
    rintro ⟨rsp, uids, rows, hout, -⟩
    cases hout

end Member

end Members

/-! ### The page of the blocked users -/

section Blocked

variable {v : BlockedView} {page : PageRequest}

/-- The offset that the table is asked with. -/
theorem position_eq (page : PageRequest) :
    page.position = (if blocked_offset page < 0 then 0 else blocked_offset page).toNat := by
  by_cases hempty : page.cursor = ""
  · rw [position_of_empty hempty, blocked_offset, if_neg (not_not.2 hempty)]
    rfl
  · rw [PageRequest.position, blocked_offset, if_pos hempty]
    cases hstoi : stoi page.cursor with
    | ok n =>
      dsimp only
      split <;> omega
    | error e => rfl

theorem list_blocked_eq :
    v.list_blocked (blocked_offset page) (blocked_limit page) =
      (v.blocked.drop page.position).take (blocked_limit page).toNat := by
  have hpos := blocked_limit_pos page
  rw [BlockedView.list_blocked, if_neg (by omega), position_eq]

/-- **The requests for blocked users that are answered with their page**, where the identity service
answers. -/
theorem exactBlocked_iff (hfetch : ∀ uids, (v.fetch_users uids).isSome = true) :
    ExactBlocked v page (ListBlockedUsers v page) ↔ v.Pageable page := by
  have hpos := blocked_limit_pos page
  have hplace := position_eq page
  obtain ⟨user_map, husers⟩ :
      ∃ user_map, blocked_users v (v.list_blocked (blocked_offset page) (blocked_limit page)) =
        .ok user_map := by
    rw [blocked_users]
    split
    · exact ⟨_, rfl⟩
    · obtain ⟨user_map, hmap⟩ := Option.isSome_iff_exists.1 (hfetch _)
      exact ⟨user_map, by rw [hmap]⟩
  rw [ListBlockedUsers]
  dsimp only [bind, Except.bind, pure, Except.pure]
  rw [husers]
  by_cases htotal : v.blocked.length < 2 ^ 63
  · rw [BlockedView.count_blocked, if_pos htotal]
    by_cases hfits : Fits 32 (blocked_offset page + blocked_limit page)
    · rw [int_add_of_fits hfits]
      dsimp only
      have hflag : (blocked_offset page + blocked_limit page < v.blocked.length ↔
          page.position + (blocked_limit page).toNat < v.blocked.length) ↔ v.Pageable page := by
        refine Iff.trans ?_ ⟨fun h ↦ ⟨hfits, htotal, h⟩, fun h ↦ h.offset⟩
        omega
      rw [← hflag]
      constructor
      · rintro ⟨rsp, uids, user_map', hout, hpage, -⟩
        obtain rfl := Except.ok.inj hout
        have hmore := hpage.more_iff
        rwa [decide_eq_true_iff] at hmore
      · intro h
        refine ⟨_, _, _, rfl, ⟨list_blocked_eq, ?_⟩, husers, rfl⟩
        rw [decide_eq_true_iff]
        exact h
    · rw [int_add_of_not_fits hfits]
      refine iff_of_false ?_ fun h ↦ hfits h.fits
      rintro ⟨rsp, uids, user_map', hout, -⟩
      cases hout
  · rw [BlockedView.count_blocked, if_neg htotal]
    refine iff_of_false ?_ fun h ↦ htotal h.total
    rintro ⟨rsp, uids, user_map', hout, -⟩
    cases hout

end Blocked

/-! ### Both -/

/-- **Which requests get the page that they ask for.** A member gets it unless the cursor is no
number, or the sum of place and limit no `int`; who has blocked others unless that sum is none, or
the offset is negative and the flag comes out otherwise for it. -/
theorem offset_paging_exact (v : MembersView) (b : BlockedView) (auth_uid : String)
    (page : PageRequest) :
    (v.require_member_ auth_uid = true →
      (ExactMembers v page (ListMembers v auth_uid page) ↔ v.Pageable page)) ∧
    ((∀ uids, (b.fetch_users uids).isSome = true) →
      (ExactBlocked b page (ListBlockedUsers b page) ↔ b.Pageable page)) :=
  ⟨exactMembers_iff, exactBlocked_iff⟩

/-- A conversation of two. -/
def twoRows : MembersView where
  rows := [{ conversation_id := "c", user_id := "alice" },
    { conversation_id := "c", user_id := "bob" }]
  nodup := by decide
  query uids := [{ conversation_id := "c", user_id := "alice" },
    { conversation_id := "c", user_id := "bob" }].filter fun m ↦ m.user_id ∈ uids
  query_perm _ := .refl _
  get_multi_user_info _ := none

/-- A user who has blocked two others. -/
def twoBlocked : BlockedView where
  blocked := ["bob", "carol"]
  fetch_users _ := some fun uid ↦ some { user_id := uid }

/-- At the second page of each. -/
theorem offset_paging_exact_second :
    ExactMembers twoRows ⟨1, "1"⟩ (ListMembers twoRows "alice" ⟨1, "1"⟩) ∧
      ExactBlocked twoBlocked ⟨1, "1"⟩ (ListBlockedUsers twoBlocked ⟨1, "1"⟩) := by
  have h := offset_paging_exact twoRows twoBlocked "alice" ⟨1, "1"⟩
  refine ⟨(h.1 (by decide)).2 ?_, (h.2 fun _ ↦ rfl).2 ?_⟩
  · exact ⟨.inr ⟨1, by rfl⟩, by decide, .inl (by decide)⟩
  · exact ⟨by decide, by decide, .inl (by decide)⟩

/-- A place so far behind that the sum runs over, a cursor that is no number, and a negative one. -/
theorem offset_paging_fails :
    ¬ ExactMembers twoRows ⟨0, "2147483647"⟩ (ListMembers twoRows "alice" ⟨0, "2147483647"⟩) ∧
      ¬ ExactMembers twoRows ⟨0, "abc"⟩ (ListMembers twoRows "alice" ⟨0, "abc"⟩) ∧
      ¬ ExactBlocked twoBlocked ⟨5, "-10"⟩ (ListBlockedUsers twoBlocked ⟨5, "-10"⟩) := by
  have hsum : ListMembers twoRows "alice" ⟨0, "2147483647"⟩ = .error .undefined := by rfl
  have htext : ListMembers twoRows "alice" ⟨0, "abc"⟩ = .error (.error internal_error) := by rfl
  have hnegative : ∃ rsp, ListBlockedUsers twoBlocked ⟨5, "-10"⟩ = .ok rsp ∧
      rsp.page.has_more = true := ⟨_, rfl, by decide⟩
  refine ⟨?_, ?_, ?_⟩
  · rw [hsum]
    rintro ⟨rsp, uids, rows, hout, -⟩
    cases hout
  · rw [htext]
    rintro ⟨rsp, uids, rows, hout, -⟩
    cases hout
  · obtain ⟨rsp, hrsp, hmore⟩ := hnegative
    rw [hrsp]
    rintro ⟨rsp', uids, user_map, hout, hpage, -⟩
    obtain rfl := Except.ok.inj hout
    exact absurd (hpage.more_iff.1 hmore) (by decide)

end ChatNow
