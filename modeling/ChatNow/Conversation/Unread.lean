import ChatNow.Conversation.ViewMachine
import Mathlib.Order.Interval.Finset.Nat

/-!
# Unread counts

The count in a response is the difference of `max_seq` of the conversation and `last_read_seq` of
the member. `MarkRead` advances the second. The first is to be advanced by `bump_max_seq`, which
nobody calls: `onDBMessage` writes to the message table and the timelines only. So all counts are 0
(`SeqInv`), and they are right for those who have read everything (`unread_count_iff`).
-/

namespace ChatNow

open Prog

variable {Text : Type}

namespace ViewState

variable (s : ViewState Text) (cid uid : String)

/-- The greatest number of a message of the conversation that has been stored. -/
def persisted : ℕ := (select_max_seq s.pipe.rows cid).toNat

/-- The greatest number that the member has marked as read. -/
def marked : ℕ := ((s.marks.filter fun m ↦ m.1 = cid ∧ m.2.1 = uid).map (·.2.2)).foldl max 0

/-- The numbers above what the member has marked, up to the last message. -/
def unread : Finset ℕ := Finset.Ioc (min (s.marked cid uid) (s.persisted cid)) (s.persisted cid)

/-- The member has marked the last message, or there is none. -/
def CaughtUp : Prop := s.persisted cid ≤ s.marked cid uid

/-- What has been answered: the conversation, the member, and what the member is told. -/
def told : List (String × String × conversation.SelfMemberInfo) :=
  s.answers.flatMap fun a ↦
    match a.2 with
    | .error _ => []
    | .ok rsp => rsp.entries.filterMap fun c ↦ c.self.map fun info ↦ (c.conversation_id, a.1, info)

variable {s cid uid}

theorem card_unread : (s.unread cid uid).card = s.persisted cid - s.marked cid uid := by
  rw [unread, Nat.card_Ioc]
  omega

theorem caughtUp_iff : s.CaughtUp cid uid ↔ (s.unread cid uid).card = 0 := by
  rw [card_unread, CaughtUp, Nat.sub_eq_zero_iff_le]

theorem mem_told {info : conversation.SelfMemberInfo} (h : (cid, uid, info) ∈ s.told) :
    ∃ rsp, (uid, .ok rsp) ∈ s.answers ∧ ∃ c ∈ rsp.entries, c.self = some info := by
  obtain ⟨⟨auth_uid, rsp⟩, ha, hx⟩ := List.mem_flatMap.1 h
  cases rsp with
  | error e => cases hx
  | ok rsp =>
    obtain ⟨c, hc, hself⟩ := List.mem_filterMap.1 hx
    obtain ⟨info', hinfo, heq⟩ := Option.map_eq_some_iff.1 hself
    obtain ⟨-, rfl, rfl⟩ : _ ∧ auth_uid = uid ∧ info' = info := by simpa using heq
    exact ⟨rsp, ha, c, hc, hinfo⟩

/-- Nobody has been told of anything unread. -/
def NoneUnread (s : ViewState Text) : Prop := ∀ a ∈ s.answers, ∀ rsp, a.2 = .ok rsp → rsp.NoneUnread

end ViewState

section Run

variable {lib : JsonLib} {cfg : ViewConfig}

/-- Only a query answers one. -/
theorem answers_of_exec {s s' : ViewState lib.Text} {i : ℕ} {o : ViewOp lib.Text} {ch : ViewChoice}
    {r : o.Res} (hx : s.exec cfg.collate i o ch = some (r, s')) :
    s'.answers = s.answers ∨
      ∃ auth_uid rsp, o = .reply auth_uid rsp ∧ s'.answers = (auth_uid, rsp) :: s.answers := by
  cases o with
  | conv o | message o =>
    obtain ⟨x, -, heq⟩ := Option.map_eq_some_iff.1 hx
    obtain ⟨-, rfl⟩ := Prod.mk.inj heq
    exact .inl rfl
  | lastMsgGet key =>
    simp only [ViewState.exec] at hx
    split at hx
    · split at hx <;>
      · obtain ⟨-, rfl⟩ := Prod.mk.inj (Option.some.inj hx)
        exact .inl rfl
    · obtain ⟨-, rfl⟩ := Prod.mk.inj (Option.some.inj hx)
      exact .inl rfl
  | lastMsgSet key preview_json =>
    simp only [ViewState.exec] at hx
    split at hx <;>
    · obtain ⟨-, rfl⟩ := Prod.mk.inj (Option.some.inj hx)
      exact .inl rfl
  | reply auth_uid rsp =>
    obtain ⟨-, rfl⟩ := Prod.mk.inj (Option.some.inj hx)
    exact .inr ⟨auth_uid, rsp, rfl, rfl⟩
  | listOrderedByUser | getMultiUserInfo | callMessage | copyPreview =>
    obtain ⟨-, rfl⟩ := Prod.mk.inj (Option.some.inj hx)
    exact .inl rfl

/-- In every run, all counts are 0. -/
theorem none_unread {p : ViewPool lib.Text}
    (hr : (viewService lib cfg).Reach .any ⟨[], {}⟩ p) : p.shared.NoneUnread := by
  suffices h : ∃ ts, SeqInv ts p.shared ∧ p.shared.NoneUnread by
    obtain ⟨-, -, hnone⟩ := h
    exact hnone
  refine view_invariant (I := fun _ s ↦ s.NoneUnread) hr (fun a ha ↦ nomatch ha) ?_ ?_ fun h _ ↦ h
  · intro ts s i t o ch r s' h hi ha _ hx a hmem rsp hok
    rcases answers_of_exec hx with heq | ⟨auth_uid, answer, rfl, heq⟩
    · rw [heq] at hmem
      exact h a hmem rsp hok
    · rw [heq] at hmem
      rcases List.mem_cons.1 hmem with rfl | hmem
      · cases t with
        | conv t => exact ha.elim
        | read ph => exact ha rsp hok
      · exact h a hmem rsp hok
  · intro ts e p p' h _ hx
    cases e <;>
    · obtain rfl := Option.some.inj hx
      exact h

/-- **A count is right exactly when nothing is unread.** In every run, whatever a member has been
told, and whatever moment up to then it is compared with: the count is that of the numbers above
the member's greatest mark up to the last message if and only if the member has marked the last
message, or there is none. -/
theorem unread_count_iff {p₀ p : ViewPool lib.Text}
    (h₀ : (viewService lib cfg).Reach .any ⟨[], {}⟩ p₀)
    (hr : (viewService lib cfg).Reach .any p₀ p) {cid uid : String}
    {info : conversation.SelfMemberInfo} (hinfo : (cid, uid, info) ∈ p.shared.told) :
    info.unread_count = (p₀.shared.unread cid uid).card ↔ p₀.shared.CaughtUp cid uid := by
  obtain ⟨rsp, ha, c, hc, hself⟩ := ViewState.mem_told hinfo
  have hzero := none_unread (h₀.trans hr) _ ha rsp rfl c hc info hself
  rw [ViewState.caughtUp_iff, hzero, eq_comm]

end Run

/-- Alice sends a message, and bob lists his conversations. -/
def bobLists : List ViewLabel := aliceAndBob ++ aliceSays 1 1 1 ++ bobAsks 2 .list 9

theorem unread_count_iff_bob :
    ∃ p : ViewPool JsonLib.plain.Text, ∃ info,
      (viewService .plain ⟨⟨""⟩, {}, id⟩).Reach .any ⟨[], {}⟩ p ∧
      ("g_1", "bob", info) ∈ p.shared.told ∧
      (info.unread_count = (p.shared.unread "g_1" "bob").card ↔ p.shared.CaughtUp "g_1" "bob") := by
  obtain ⟨p, hr, htold⟩ := Machine.exists_of_run
    (viewService .plain ⟨⟨""⟩, {}, id⟩) .any ⟨[], {}⟩ bobLists
    (fun p ↦ ∃ x ∈ p.shared.told, x.1 = "g_1" ∧ x.2.1 = "bob") (by decide +kernel)
  obtain ⟨⟨-, -, info⟩, hx, rfl, rfl⟩ := htold
  exact ⟨p, info, hr, hx, unread_count_iff hr .refl hx⟩

/-- **A count is wrong**: bob has read nothing, and is told that nothing is unread. -/
theorem bob_has_unread :
    ∃ p : ViewPool JsonLib.plain.Text, ∃ info,
      (viewService .plain ⟨⟨""⟩, {}, id⟩).Reach .any ⟨[], {}⟩ p ∧
      ("g_1", "bob", info) ∈ p.shared.told ∧
      info.unread_count = 0 ∧ (p.shared.unread "g_1" "bob").card = 1 := by
  obtain ⟨p, hr, htold, hcard⟩ := Machine.exists_of_run
    (viewService .plain ⟨⟨""⟩, {}, id⟩) .any ⟨[], {}⟩
    bobLists (fun p ↦ (∃ x ∈ p.shared.told, x.1 = "g_1" ∧ x.2.1 = "bob" ∧ x.2.2.unread_count = 0) ∧
      (p.shared.unread "g_1" "bob").card = 1) (by decide +kernel)
  obtain ⟨⟨-, -, info⟩, hx, rfl, rfl, hzero⟩ := htold
  exact ⟨p, info, hr, hx, hzero, hcard⟩

end ChatNow
